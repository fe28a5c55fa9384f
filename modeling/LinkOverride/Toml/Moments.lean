import LinkOverride.Toml.Cursor
import LinkOverride.Decimal.Reading
import LinkOverride.Moment

/-!
# Dates and times in documents

A date may be followed by a time, and the time by an offset. What follows and is no time is left
where it is. A date that the calendar does not have is a fault.
-/

namespace LinkOverride.Toml

def pair? (most : Nat) : List Char → Option (Nat × List Char)
  | a :: b :: cs =>
    if a.isDigit && b.isDigit then
      let n := Decimal.digitsValue [a, b]
      if n ≤ most then some (n, cs) else none
    else none
  | _ => none

def expect? (c : Char) : List Char → Option (List Char)
  | d :: cs => if d = c then some cs else none
  | [] => none

def year? : List Char → Option (Nat × List Char)
  | a :: b :: c :: d :: cs =>
    if [a, b, c, d].all Char.isDigit then some (Decimal.digitsValue [a, b, c, d], cs) else none
  | _ => none

def date? (cs : List Char) : Option (Date × List Char) := do
  let (y, cs) ← year? cs
  let cs ← expect? '-' cs
  let (m, cs) ← pair? 12 cs
  let cs ← expect? '-' cs
  let (d, cs) ← pair? 31 cs
  if m = 0 ∨ d = 0 then none else some (⟨y, m, d⟩, cs)

/-- Of the digits behind the point, six count. -/
def microseconds (ds : List Char) : Nat :=
  let six := ds.take 6
  Decimal.digitsValue (six ++ List.replicate (6 - six.length) '0')

def fraction (cs : List Char) : Nat × List Char :=
  match cs with
  | '.' :: rest =>
    let ds := rest.takeWhile Char.isDigit
    if ds.isEmpty then (0, cs) else (microseconds ds, rest.dropWhile Char.isDigit)
  | _ => (0, cs)

def clock? (cs : List Char) : Option (Clock × List Char) := do
  let (h, cs) ← pair? 23 cs
  let cs ← expect? ':' cs
  let (m, cs) ← pair? 59 cs
  let cs ← expect? ':' cs
  let (s, cs) ← pair? 59 cs
  let (us, cs) := fraction cs
  return (⟨h, m, s, us⟩, cs)

def hourMinute? (cs : List Char) : Option (Nat × List Char) := do
  let (h, cs) ← pair? 23 cs
  let cs ← expect? ':' cs
  let (m, cs) ← pair? 59 cs
  return (60 * h + m, cs)

def offset? : List Char → Option (Int × List Char)
  | 'Z' :: cs => some (0, cs)
  | 'z' :: cs => some (0, cs)
  | '+' :: cs => (hourMinute? cs).map fun (n, rest) => ((n : Int), rest)
  | '-' :: cs => (hourMinute? cs).map fun (n, rest) => (-(n : Int), rest)
  | _ => none

/-- A time behind a date, after a letter or one blank. -/
def timeBehind? : List Char → Option (Clock × List Char)
  | c :: cs => if c = 'T' ∨ c = 't' ∨ c = ' ' then clock? cs else none
  | [] => none

def moment? (cs : List Char) : Option (Except Fault (Moment × List Char)) :=
  match date? cs with
  | some (d, rest) => some <|
    if !d.exists? then .error .malformed
    else match timeBehind? rest with
      | none => .ok (.date d, rest)
      | some (t, rest) =>
        match offset? rest with
        | none => .ok (.both d t none, rest)
        | some (o, rest) => .ok (.both d t (some o), rest)
  | none => (clock? cs).map fun (t, rest) => .ok (.clock t, rest)

end LinkOverride.Toml
