import LinkOverride.Decimal.Shortest

/-!
# How numbers are written

Numbers are written with the fewest digits that identify them: positionally while the leading digit
stands between 10⁻⁴ and 10¹⁵, with a point even if they are whole, and otherwise with a signed
exponent of at least two digits.
-/

namespace LinkOverride.Decimal

def natDigits (n : Nat) : List Char := Nat.toDigits 10 n

def zeros (n : Nat) : List Char := List.replicate n '0'

/-- The leading exponents that are written positionally, from the first to below the second. -/
def positionalFrom : Int := -4
def positionalBelow : Int := 16

def exponentText (e : Int) : List Char :=
  let ds := natDigits e.natAbs
  'e' :: (if e < 0 then '-' else '+') :: (zeros (2 - ds.length) ++ ds)

/-- `ds`, at least one digit, with the leading digit at `10 ^ e`. -/
def layout (ds : List Char) (e : Int) : List Char :=
  if positionalFrom ≤ e ∧ e < positionalBelow then
    if e < 0 then '0' :: '.' :: (zeros (-e - 1).toNat ++ ds)
    else
      let whole := e.toNat + 1
      if ds.length ≤ whole then ds ++ zeros (whole - ds.length) ++ ['.', '0']
      else ds.take whole ++ '.' :: ds.drop whole
  else
    match ds with
    | [] => []
    | [d] => d :: exponentText e
    | d :: rest => d :: '.' :: (rest ++ exponentText e)

def magnitudeText (bits : UInt64) : List Char :=
  let x := Binary.ofBits bits
  if x.significand = 0 then ['0', '.', '0']
  else
    let d := x.shortest
    let ds := natDigits d.digits
    layout ds (d.exponent + (ds.length : Int) - 1)

/-- The text of a double. A zero keeps its sign, NaN has none. -/
def floatText (f : Float) : String :=
  if f.isNaN then "nan"
  else
    let sign := if f.toBits >>> 63 = 1 then ['-'] else []
    if f.isInf then String.ofList (sign ++ ['i', 'n', 'f'])
    else String.ofList (sign ++ magnitudeText f.toBits)

end LinkOverride.Decimal
