import LinkOverride.Value
import LinkOverride.Failure
import LinkOverride.Decimal.Layout

/-!
# The text of a value

A value on its own is written plainly, a value inside a collection so that its kind can be told: a
text in quotes, a moment with its fields. A whole number of too many digits has no text, and nothing
that holds one has.
-/

namespace LinkOverride.Value

/-- The most decimal digits that a whole number may have to be read or written. -/
def maxDigits : Nat := 4300

def intText? (i : Int) : Option String :=
  let ds := Nat.toDigits 10 i.natAbs
  if maxDigits < ds.length then none
  else some (String.ofList (if i < 0 then '-' :: ds else ds))

mutual

/-- The text of a value inside a collection. -/
def shown? : Value → Option String
  | null => some "None"
  | bool b => some (if b then "True" else "False")
  | int i => intText? i
  | float f => some (Decimal.floatText f)
  | str s => some (Text.quoted s)
  | list vs => (shownItems? vs).map fun ts => "[" ++ ", ".intercalate ts ++ "]"
  | table es => (shownEntries? es).map fun ts => "\x7b" ++ ", ".intercalate ts ++ "\x7d"
  | moment m => some m.described

def shownItems? : List Value → Option (List String)
  | [] => some []
  | v :: vs => do
    let t ← shown? v
    let ts ← shownItems? vs
    return t :: ts

def shownEntries? : List (String × Value) → Option (List String)
  | [] => some []
  | (k, v) :: es => do
    let t ← shown? v
    let ts ← shownEntries? es
    return (Text.quoted k ++ ": " ++ t) :: ts

end

/-- The text of a value on its own. -/
def text? : Value → Option String
  | str s => some s
  | moment m => some m.text
  | v => shown? v

/-- The text of a value on its own, or why it has none. -/
def text (v : Value) : Except Failure String :=
  match text? v with
  | some t => .ok t
  | none => .error (.badValue .tooLongToWrite)

theorem text_of_text?_eq_none {v : Value} (h : v.text? = none) :
    v.text = .error (.badValue .tooLongToWrite) := by
  rw [text, h]

theorem text_of_text?_eq_some {v : Value} {t : String} (h : v.text? = some t) :
    v.text = .ok t := by
  rw [text, h]

theorem text?_int (i : Int) : text? (int i) = intText? i := by
  rw [text?, shown?]
  all_goals simp

theorem text?_float (f : Float) : text? (float f) = some (Decimal.floatText f) := by
  rw [text?, shown?]
  all_goals simp

end LinkOverride.Value
