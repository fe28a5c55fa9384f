import LinkOverride.Toml.Moments
import LinkOverride.Toml.Numbers
import LinkOverride.Toml.Strings
import LinkOverride.Toml.Tables

/-!
# Keys and values

A key is one name or several with dots between them. A value is a string, a boolean, a number, a
date or time, an array, or a table written inline.
-/

namespace LinkOverride.Toml

/-! ## Keys -/

def isBareKeyChar (c : Char) : Bool := c.isAlphanum || c == '-' || c == '_'

def name (cs : List Char) : Except Fault (String × List Char) :=
  match cs with
  | [] => .error .malformed
  | c :: _ =>
    if isBareKeyChar c then
      .ok (String.ofList (cs.takeWhile isBareKeyChar), cs.dropWhile isBareKeyChar)
    else match oneLine? cs with
      | some r => r.map fun (s, rest) => (String.ofList s, rest)
      | none => .error .malformed

/-- The names of a key, and the rest behind the blanks that follow it. -/
def key : Nat → List Char → Except Fault (Key × List Char)
  | 0, _ => .error .malformed
  | fuel + 1, cs => do
    let (n, rest) ← name cs
    match skipGap rest with
    | '.' :: rest =>
      let (ns, rest) ← key fuel (skipGap rest)
      return (n :: ns, rest)
    | rest => return ([n], rest)

/-! ## Values -/

def bool? : List Char → Option (Bool × List Char)
  | 't' :: 'r' :: 'u' :: 'e' :: cs => some (true, cs)
  | 'f' :: 'a' :: 'l' :: 's' :: 'e' :: cs => some (false, cs)
  | _ => none

/-- A value that holds no other values. -/
def plain (cs : List Char) : Except Fault (Value × List Char) :=
  match string? cs with
  | some r => r.map fun (s, rest) => (.str (String.ofList s), rest)
  | none =>
    match bool? cs with
    | some (b, rest) => .ok (.bool b, rest)
    | none =>
      match moment? cs with
      | some r => r.map fun (m, rest) => (.moment m, rest)
      | none => (number? cs).getD (.error .malformed)

def isCollection : Value → Bool
  | .list _ => true
  | .table _ => true
  | _ => false

/-- Adds one entry to an inline table. -/
def addInline (k : Key) (v : Value) (es : Entries) (closed : Marks) :
    Except Fault (Entries × Marks) :=
  if closed.isClosed k then .error .malformed
  else match atKey? false (addNew? (k.getLastD "") v) k.dropLast es with
    | none => .error .malformed
    | some es => .ok (es, if isCollection v then closed.close k else closed)

mutual

def value : Nat → List Char → Except Fault (Value × List Char)
  | 0, _ => .error .malformed
  | fuel + 1, '[' :: cs => do
    let (vs, rest) ← items fuel (← skipLines fuel cs)
    return (.list vs, rest)
  | fuel + 1, '\x7b' :: cs =>
    match skipGap cs with
    | '\x7d' :: rest => return (.table [], rest)
    | rest => do
      let (es, rest) ← pairs fuel [] .none rest
      return (.table es, rest)
  | _ + 1, cs => plain cs

/-- The members of an array, with its closing bracket. A comma may follow the last. -/
def items : Nat → List Char → Except Fault (List Value × List Char)
  | 0, _ => .error .malformed
  | fuel + 1, cs =>
    match cs with
    | ']' :: rest => return ([], rest)
    | _ => do
      let (v, rest) ← value fuel cs
      match ← skipLines fuel rest with
      | ']' :: rest => return ([v], rest)
      | ',' :: rest => do
        let (vs, rest) ← items fuel (← skipLines fuel rest)
        return (v :: vs, rest)
      | _ => .error .malformed

/-- The entries of an inline table, with its closing brace. -/
def pairs : Nat → Entries → Marks → List Char → Except Fault (Entries × List Char)
  | 0, _, _, _ => .error .malformed
  | fuel + 1, es, closed, cs => do
    let (k, rest) ← key fuel cs
    match rest with
    | '=' :: rest => do
      let (v, rest) ← value fuel (skipGap rest)
      let (es, closed) ← addInline k v es closed
      match skipGap rest with
      | '\x7d' :: rest => return (es, rest)
      | ',' :: rest => pairs fuel es closed (skipGap rest)
      | _ => .error .malformed
    | _ => .error .malformed

end

/-- A key, an equals sign and a value. -/
def pair (cs : List Char) : Except Fault ((Key × Value) × List Char) := do
  let (k, rest) ← key (cs.length + 1) cs
  match rest with
  | '=' :: rest => do
    let (v, rest) ← value (2 * rest.length + 3) (skipGap rest)
    return ((k, v), rest)
  | _ => .error .malformed

end LinkOverride.Toml
