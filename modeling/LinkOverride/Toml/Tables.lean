import LinkOverride.Toml.Cursor
import LinkOverride.Value

/-!
# Tables under construction

A document builds its tables piece by piece. A key is a list of names that leads from the top
downwards, through the last member of each array of tables. Some tables may not be changed any more:
those written out inline, and those that were declared once already.
-/

namespace LinkOverride.Toml

abbrev Key := List String

/-! ## Reaching a table -/

/-- The table behind a value, if it is one or an array that ends with one. -/
def tableIn? (throughArrays : Bool) : Value → Option Entries
  | .table es => some es
  | .list vs =>
    if throughArrays then
      match vs.getLast? with
      | some (.table es) => some es
      | _ => none
    else none
  | _ => none

def putTable (es : Entries) : Value → Value
  | .list vs => .list (vs.dropLast ++ [.table es])
  | _ => .table es

/-- Changes the table at a key; tables that are missing on the way are made. -/
def atKey? (throughArrays : Bool) (change : Entries → Option Entries) :
    Key → Entries → Option Entries
  | [], es => change es
  | k :: ks, es =>
    match es.find? k with
    | none => (atKey? throughArrays change ks []).map fun inner => es.insert k (.table inner)
    | some v =>
      match tableIn? throughArrays v with
      | none => none
      | some inner =>
        (atKey? throughArrays change ks inner).map fun inner => es.insert k (putTable inner v)

/-- Writes a value to a name that is not taken. -/
def addNew? (k : String) (v : Value) (es : Entries) : Option Entries :=
  if es.holds k then none else some (es.insert k v)

/-- Appends an empty table to the array under a name. -/
def appendTable? (k : String) (es : Entries) : Option Entries :=
  match es.find? k with
  | none => some (es.insert k (.list [.table []]))
  | some (.list vs) => some (es.insert k (.list (vs ++ [.table []])))
  | some _ => none

/-! ## Marks -/

/-- What is known about the tables of a document besides their content. -/
structure Marks where
  /-- Tables that were declared, each by its exact key. -/
  declared : List Key
  /-- Values written inline; all below them is closed too. -/
  closed : List Key
  /-- Tables opened by dotted keys; they count as declared from the next heading on. -/
  pending : List Key

namespace Marks

def none : Marks := ⟨[], [], []⟩

/-- The top of a document is never closed or declared. -/
def isClosed (m : Marks) (k : Key) : Bool := !k.isEmpty && m.closed.any (·.isPrefixOf k)

def isDeclared (m : Marks) (k : Key) : Bool := !k.isEmpty && m.declared.contains k

def declare (m : Marks) (k : Key) : Marks := { m with declared := k :: m.declared }

def close (m : Marks) (k : Key) : Marks := { m with closed := k :: m.closed }

def await (m : Marks) (ks : List Key) : Marks := { m with pending := ks ++ m.pending }

/-- A heading begins. -/
def settle (m : Marks) : Marks := { m with declared := m.pending ++ m.declared, pending := [] }

/-- Forgets all about a key and what lies below it. -/
def forget (m : Marks) (k : Key) : Marks :=
  { m with
    declared := m.declared.filter (!k.isPrefixOf ·)
    closed := m.closed.filter (!k.isPrefixOf ·) }

end Marks

end LinkOverride.Toml
