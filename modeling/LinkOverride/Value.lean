import LinkOverride.Keyed
import LinkOverride.Moment

/-!
# Values of configuration documents

What a document can hold under a key, and what stands for a setting that has no value.
-/

namespace LinkOverride

inductive Value
  | null
  | bool (b : Bool)
  | int (i : Int)
  | float (f : Float)
  | str (s : String)
  | list (vs : List Value)
  | table (entries : List (String × Value))
  | moment (m : Moment)

abbrev Entries := Keyed Value

namespace Value

instance : Inhabited Value := ⟨null⟩

/-- Whether a value counts as given: zero, the empty text and empty collections do not. -/
def isTruthy : Value → Bool
  | null => false
  | bool b => b
  | int i => i != 0
  | float f => !(f == 0.0)
  | str s => !s.isEmpty
  | list vs => !vs.isEmpty
  | table es => !es.isEmpty
  | moment _ => true

@[simp] theorem isTruthy_str (s : String) : isTruthy (str s) = !s.isEmpty := rfl

/-- Whether a value equals a given text. -/
def isText (v : Value) (s : String) : Bool :=
  match v with
  | str t => t == s
  | _ => false

@[simp] theorem isText_str (s t : String) : isText (str t) s = (t == s) := rfl

theorem isText_iff {v : Value} {s : String} : v.isText s = true ↔ v = str s := by
  cases v with
  | str t => rw [isText_str, beq_iff_eq, str.injEq]
  | _ => exact iff_of_false (by simp [isText]) (by simp)

end Value

end LinkOverride
