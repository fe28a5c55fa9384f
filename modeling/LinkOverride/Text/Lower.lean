import LinkOverride.Text.Ranges
import LinkOverride.Text.Lower.Table

/-!
# Lower case

Each character has its lower case form alone, with two exceptions: the capital I with a dot becomes
two characters, and a capital sigma that ends a word becomes the final sigma.
-/

namespace LinkOverride.Text

/-- The lower case form of one character, whatever stands around it. -/
def lowerOne (c : Char) : Char :=
  match lowerRuns.find? fun r =>
      decide (r.1 ≤ c.toNat) && decide (c.toNat ≤ r.2.1) && (c.toNat - r.1) % r.2.2.1 == 0 with
  | some r => Char.ofNat (r.2.2.2 + (c.toNat - r.1))
  | none => c

def isCaseIgnorable (c : Char) : Bool := inRanges caseIgnorableRanges c.toNat

/-- The first character that is not ignorable is cased. -/
def meetsCased (cs : List Char) : Bool :=
  match cs.dropWhile isCaseIgnorable with
  | [] => false
  | c :: _ => inRanges casedRanges c.toNat

/-- Lower case after `seen`, the text passed so far, last character first. -/
def lowerFrom (seen : List Char) : List Char → List Char
  | [] => []
  | c :: cs =>
    let image :=
      if c = 'Σ' then
        if meetsCased seen && !meetsCased cs then ['ς'] else ['σ']
      else if c = 'İ' then ['i', '\u0307']
      else [lowerOne c]
    image ++ lowerFrom (c :: seen) cs

def lowerChars (cs : List Char) : List Char := lowerFrom [] cs

def lower (s : String) : String := String.ofList (lowerChars s.toList)

theorem lowerFrom_cons_of_ne {c : Char} (seen cs : List Char) (h1 : c ≠ 'Σ') (h2 : c ≠ 'İ') :
    lowerFrom seen (c :: cs) = lowerOne c :: lowerFrom (c :: seen) cs := by
  simp [lowerFrom, h1, h2]

end LinkOverride.Text
