import LinkOverride.Toml.Values

/-!
# Documents

A document is a sequence of lines. A line is empty, gives a key a value, or is a heading: a table to
which the lines below it belong, or one more table in an array. Comments may end any line.
-/

namespace LinkOverride.Toml

/-- A document read so far. -/
structure Draft where
  root : Entries
  marks : Marks
  /-- The table of the last heading. -/
  heading : Key

namespace Draft

def empty : Draft := ⟨[], .none, []⟩

/-- Opens the table at a key. -/
def openTable? (d : Draft) (k : Key) : Option Draft :=
  if d.marks.isDeclared k || d.marks.isClosed k then none
  else (atKey? true some k d.root).map fun root => ⟨root, d.marks.declare k, k⟩

/-- Opens a new table at the end of an array of tables. -/
def openMember? (d : Draft) (k : Key) : Option Draft :=
  if d.marks.isClosed k then none
  else (atKey? true (appendTable? (k.getLastD "")) k.dropLast d.root).map fun root =>
    ⟨root, (d.marks.forget k).declare k, k⟩

/-- The tables that a dotted key passes through, below the heading. -/
def passed (heading : Key) (k : Key) : List Key :=
  ((List.range k.length).drop 1).map fun n => heading ++ k.take n

/-- Gives a key below the heading a value. -/
def assign? (d : Draft) (k : Key) (v : Value) : Option Draft :=
  let through := passed d.heading k
  let parent := d.heading ++ k.dropLast
  if through.any d.marks.isDeclared || d.marks.isClosed parent then none
  else (atKey? true (addNew? (k.getLastD "") v) parent d.root).map fun root =>
    let marks := d.marks.await through
    { d with root, marks := if isCollection v then marks.close (d.heading ++ k) else marks }

end Draft

def orMalformed {α : Type} : Option α → Except Fault α
  | some a => .ok a
  | none => .error .malformed

/-- A heading behind its first bracket. -/
def headingLine (d : Draft) (cs : List Char) : Except Fault (Draft × List Char) := do
  let d := { d with marks := d.marks.settle }
  match cs with
  | '[' :: cs =>
    let (k, rest) ← key (cs.length + 1) (skipGap cs)
    let d ← orMalformed (d.openMember? k)
    match rest with
    | ']' :: ']' :: rest => return (d, rest)
    | _ => .error .malformed
  | cs =>
    let (k, rest) ← key (cs.length + 1) (skipGap cs)
    let d ← orMalformed (d.openTable? k)
    match rest with
    | ']' :: rest => return (d, rest)
    | _ => .error .malformed

/-- What a line says, up to a comment or the line end. -/
def statement (d : Draft) (cs : List Char) : Except Fault (Draft × List Char) :=
  match cs with
  | '[' :: rest => headingLine d rest
  | '#' :: _ => .ok (d, cs)
  | c :: _ =>
    if isBareKeyChar c || c == '"' || c == '\'' then do
      let ((k, v), rest) ← pair cs
      let d ← orMalformed (d.assign? k v)
      return (d, rest)
    else .error .malformed
  | [] => .ok (d, [])

def readLines : Nat → Draft → List Char → Except Fault Draft
  | 0, d, _ => .ok d
  | fuel + 1, d, cs =>
    match skipGap cs with
    | [] => .ok d
    | '\n' :: rest => readLines fuel d rest
    | cs => do
      let (d, rest) ← statement d cs
      match ← skipComment (skipGap rest) with
      | [] => return d
      | '\n' :: rest => readLines fuel d rest
      | _ => .error .malformed

/-- The entries of a document. -/
def readDocument (s : String) : Except Fault Entries :=
  let cs := unifyLines s.toList
  (readLines (cs.length + 1) .empty cs).map (·.root)

end LinkOverride.Toml
