import LinkOverride.Text.Words
import LinkOverride.Text.Lower
import LinkOverride.Text.Quoted

/-!
# Hardware addresses

An address is six octets. Its canonical form has two lower case hexadecimal digits for each and a
colon between them. Three other forms are read: hyphens for colons, three groups of four digits with
dots between them, and octets of a single digit.
-/

namespace LinkOverride.Address

/-- What asks for a fresh random address. -/
def randomWord : String := "<random mac>"

/-- The form of an address as it is shown to the user. -/
def pattern : String := ":".intercalate (List.replicate 6 "[a-fA-F0-9]\x7b2\x7d")

def isHex (c : Char) : Bool := c.isDigit || ('a' ≤ c && c ≤ 'f') || ('A' ≤ c && c ≤ 'F')

def isLowerHex (c : Char) : Bool := c.isDigit || ('a' ≤ c && c ≤ 'f')

theorem isHex_of_isLowerHex {c : Char} (h : isLowerHex c = true) : isHex c = true := by
  simp only [isLowerHex, isHex, Bool.or_eq_true] at *
  rcases h with h | h
  · exact .inl (.inl h)
  · exact .inl (.inr h)

theorem isLowerHex_hexDigit (d : Fin 16) : isLowerHex (Text.hexDigit d) = true := by
  revert d
  decide

/-! ## Canonical form -/

def isOctet : List Char → Bool
  | [a, b] => isLowerHex a && isLowerHex b
  | _ => false

def isCanonical (cs : List Char) : Bool :=
  let fields := Text.splitAtSep ':' cs
  fields.length == 6 && fields.all isOctet

/-! ## Random addresses -/

/-- How many hexadecimal digits an address has. -/
def digitCount : Nat := 12

def pairUp : List Char → List (List Char)
  | a :: b :: cs => [a, b] :: pairUp cs
  | _ => []

/-- The address whose digits are drawn, in lower case like any canonical one. -/
def ofDigits (digits : List (Fin 16)) : List Char :=
  Text.joinSep ':' (pairUp (digits.map fun (d : Fin 16) => Text.hexDigit d))

/-! ## Normal form -/

/-- Groups of four digits with dots between them. -/
def dottedGroups? (cs : List Char) : Option (List (List Char)) :=
  let groups := Text.splitAtSep '.' cs
  if groups.length == 3 && groups.all (fun g => g.length == 4 && g.all isHex) then some groups
  else none

/-- The octets as they are written; they need not be octets at all. -/
def fieldsOf (cs : List Char) : List (List Char) :=
  match dottedGroups? cs with
  | some groups => groups.flatMap pairUp
  | none => if cs.contains '-' then Text.splitAtSep '-' cs else Text.splitAtSep ':' cs

def padOctet : List Char → List Char
  | [c] => ['0', c]
  | cs => cs

/-- Fields padded to two digits, colons between them, all in lower case. Nothing is checked. -/
def normalizeChars (cs : List Char) : List Char :=
  Text.lowerChars (Text.joinSep ':' ((fieldsOf cs).map padOctet))

/-- Whether a text, blanks aside, asks for a random address. -/
def asksRandom (s : String) : Bool := Text.strip s == randomWord

/-- The normal form of a text, given the digits drawn if it asks for a random address. -/
def normalize (digits : List (Fin 16)) (s : String) : String :=
  String.ofList
    (normalizeChars (if asksRandom s then ofDigits digits else (Text.strip s).toList))

/-! ## Reading -/

inductive Fault
  | empty
  | notSixOctets
  deriving DecidableEq, Repr

def Fault.message : Fault → String
  | empty => "address is empty"
  | notSixOctets => "expected 6 hexadecimal octets"

/-- The canonical form of a text that writes an address, or the fault in it. -/
def read (digits : List (Fin 16)) (s : String) : Except Fault String :=
  if Text.strip s = "" then .error .empty
  else
    let n := normalize digits s
    if isCanonical n.toList then .ok n else .error .notSixOctets

theorem isCanonical_of_read {digits : List (Fin 16)} {s a : String}
    (h : read digits s = .ok a) : isCanonical a.toList = true := by
  simp only [read] at h
  by_cases he : Text.strip s = ""
  · simp [he] at h
  · by_cases hc : isCanonical (normalize digits s).toList = true
    · simp only [he, if_false, hc, if_true, Except.ok.injEq] at h
      exact h ▸ hc
    · simp [he, hc] at h

end LinkOverride.Address
