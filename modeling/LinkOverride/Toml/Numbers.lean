import LinkOverride.Decimal.Reading
import LinkOverride.Toml.Strings
import LinkOverride.Value

/-!
# Numbers

Whole numbers are decimal, with a sign, or in one of three other bases, without one. A fraction or
an exponent makes a number a double. An underscore may stand between two digits.
-/

namespace LinkOverride.Toml

/-- Digits behind a digit, each with or without an underscore before it. -/
def moreDigits (isDigit : Char → Bool) : List Char → List Char × List Char
  | '_' :: d :: cs =>
    if isDigit d then
      let (ds, rest) := moreDigits isDigit cs
      (d :: ds, rest)
    else ([], '_' :: d :: cs)
  | d :: cs =>
    if isDigit d then
      let (ds, rest) := moreDigits isDigit cs
      (d :: ds, rest)
    else ([], d :: cs)
  | [] => ([], [])

/-- At least one digit. -/
def digits? (isDigit : Char → Bool) : List Char → Option (List Char × List Char)
  | d :: cs =>
    if isDigit d then
      let (ds, rest) := moreDigits isDigit cs
      some (d :: ds, rest)
    else none
  | [] => none

def isBinaryDigit (c : Char) : Bool := c == '0' || c == '1'

def isOctalDigit (c : Char) : Bool := '0' ≤ c && c ≤ '7'

def isHexDigit (c : Char) : Bool := (hexValue? c).isSome

def valueIn (base : Nat) (ds : List Char) : Nat :=
  ds.foldl (fun n d => base * n + (hexValue? d).getD 0) 0

/-- A number in another base. -/
def based? (cs : List Char) : Option (Value × List Char) :=
  let read := fun (base : Nat) (isDigit : Char → Bool) (cs : List Char) =>
    (digits? isDigit cs).map fun (ds, rest) => (Value.int (valueIn base ds), rest)
  match cs with
  | '0' :: 'x' :: cs => read 16 isHexDigit cs
  | '0' :: 'b' :: cs => read 2 isBinaryDigit cs
  | '0' :: 'o' :: cs => read 8 isOctalDigit cs
  | _ => none

/-- Digits without a leading zero, unless zero is all there is. -/
def wholePart? : List Char → Option (List Char × List Char)
  | '0' :: cs => some (['0'], cs)
  | cs => digits? Char.isDigit cs

def fractionPart (cs : List Char) : List Char × List Char :=
  match cs with
  | '.' :: rest => (digits? Char.isDigit rest).getD ([], cs)
  | _ => ([], cs)

def signOf : List Char → Bool × List Char
  | '-' :: cs => (true, cs)
  | '+' :: cs => (false, cs)
  | cs => (false, cs)

def exponentPart? (cs : List Char) : Option (Int × List Char) :=
  match cs with
  | [] => none
  | c :: rest =>
    if c = 'e' ∨ c = 'E' then
      let (negative, rest) := signOf rest
      (digits? Char.isDigit rest).map fun (ds, rest) =>
        (if negative then -(Decimal.digitsValue ds : Int) else Decimal.digitsValue ds, rest)
    else none

/-- The most digits of a whole number that is read. -/
def maxDigits : Nat := 4300

def decimal? (cs : List Char) : Option (Except Fault (Value × List Char)) :=
  let (negative, unsigned) := signOf cs
  (wholePart? unsigned).map fun (whole, rest) =>
    let (fraction, rest) := fractionPart rest
    let exponent := exponentPart? rest
    if fraction.isEmpty && exponent.isNone then
      if maxDigits < whole.length then .error (.tooLong whole.length)
      else
        let n : Int := Decimal.digitsValue whole
        .ok (.int (if negative then -n else n), rest)
    else
      let (e, rest) := exponent.getD (0, rest)
      let ds := whole ++ fraction
      let f := Decimal.nearest (Decimal.digitsValue ds) (e - (fraction.length : Int))
      .ok (.float (if negative then -f else f), rest)

/-- The doubles that are written as words. -/
def wordNumber? (cs : List Char) : Option (Value × List Char) :=
  let (negative, rest) := signOf cs
  let signed := fun (f : Float) => Value.float (if negative then -f else f)
  match rest with
  | 'i' :: 'n' :: 'f' :: rest => some (signed (1.0 / 0.0), rest)
  | 'n' :: 'a' :: 'n' :: rest => some (.float (0.0 / 0.0), rest)
  | _ => none

def number? (cs : List Char) : Option (Except Fault (Value × List Char)) :=
  match based? cs with
  | some r => some (.ok r)
  | none =>
    match decimal? cs with
    | some r => some r
    | none => (wordNumber? cs).map .ok

end LinkOverride.Toml
