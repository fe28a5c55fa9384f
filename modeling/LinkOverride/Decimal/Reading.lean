import LinkOverride.Text.Blank
import LinkOverride.Text.DecimalDigit

/-!
# Reading numbers

A number is an optional sign and either digits with an optional point and exponent, or one of the
words for infinity and NaN in any case. Digits of every script count, blanks around the number are
dropped, and an underscore may stand between two digits. The value is the nearest double; what is
too large becomes infinite.
-/

namespace LinkOverride.Decimal

open Text (decimalValue? isBlank)

/-- One character in ASCII: digits and blanks of other scripts become their ASCII counterpart. -/
def asciiForm (c : Char) : Char :=
  if c.toNat < 127 then c
  else if isBlank c then ' '
  else match decimalValue? c with
    | some d => Char.ofNat (48 + d)
    | none => '?'

def isAsciiBlank (c : Char) : Bool := c == ' ' || (decide (9 ≤ c.toNat) && decide (c.toNat ≤ 13))

def trimAscii (cs : List Char) : List Char :=
  ((cs.dropWhile isAsciiBlank).reverse.dropWhile isAsciiBlank).reverse

/-- Drops the underscores if each stands between two digits. -/
def dropUnderscores? (before : Option Char) : List Char → Option (List Char)
  | [] => some []
  | c :: cs =>
    if c = '_' then
      if (before.any Char.isDigit) && (cs.head?.any Char.isDigit) then
        dropUnderscores? (some c) cs
      else none
    else (dropUnderscores? (some c) cs).map (c :: ·)

def digitsValue (cs : List Char) : Nat := cs.foldl (fun n c => 10 * n + (c.toNat - 48)) 0

/-- The nearest double to `n * 10 ^ e`, decided by the size alone far outside the range. -/
def nearest (n : Nat) (e : Int) : Float :=
  let size := (Nat.toDigits 10 n).length + e
  if n = 0 ∨ size < -400 then 0.0
  else if 400 < size then 1.0 / 0.0
  else Float.ofScientific n (decide (e < 0)) e.natAbs

/-- An exponent mark with its digits. A sign counts as part of it. -/
def exponent? : List Char → Option Int
  | [] => some 0
  | c :: cs =>
    if c = 'e' ∨ c = 'E' then
      let (negative, ds) := match cs with
        | '-' :: ds => (true, ds)
        | '+' :: ds => (false, ds)
        | ds => (false, ds)
      if ds.isEmpty || !ds.all Char.isDigit then none
      else some (if negative then -(digitsValue ds : Int) else digitsValue ds)
    else none

def unsigned? (cs : List Char) : Option Float :=
  let whole := cs.takeWhile Char.isDigit
  let rest := cs.dropWhile Char.isDigit
  let (fraction, rest) := match rest with
    | '.' :: r => (r.takeWhile Char.isDigit, r.dropWhile Char.isDigit)
    | r => ([], r)
  if whole.isEmpty && fraction.isEmpty then none
  else (exponent? rest).map fun e =>
    nearest (digitsValue (whole ++ fraction)) (e - (fraction.length : Int))

def wordValue? (cs : List Char) : Option Float :=
  match String.ofList (cs.map Char.toLower) with
  | "inf" => some (1.0 / 0.0)
  | "infinity" => some (1.0 / 0.0)
  | "nan" => some (0.0 / 0.0)
  | _ => none

def magnitude? (cs : List Char) : Option Float := (wordValue? cs).orElse fun _ => unsigned? cs

def signed? : List Char → Option Float
  | '-' :: cs => (magnitude? cs).map (-·)
  | '+' :: cs => magnitude? cs
  | cs => magnitude? cs

/-- The number written by the text, if it writes one. -/
def readFloat? (s : String) : Option Float :=
  (dropUnderscores? none (trimAscii (s.toList.map asciiForm))).bind signed?

/-- The double nearest to a whole number, unless that is infinite. -/
def ofInt? (i : Int) : Option Float :=
  let f := nearest i.natAbs 0
  if f.isInf then none else some (if i < 0 then -f else f)

end LinkOverride.Decimal
