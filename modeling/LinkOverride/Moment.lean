/-!
# Dates and times

Calendar dates, times of day to the microsecond, and both together with or without an offset from
universal time.
-/

namespace LinkOverride

structure Date where
  year : Nat
  month : Nat
  day : Nat
  deriving DecidableEq, Repr

structure Clock where
  hour : Nat
  minute : Nat
  second : Nat
  microsecond : Nat
  deriving DecidableEq, Repr

inductive Moment
  | date (d : Date)
  | clock (t : Clock)
  /-- The offset counts minutes, to the east if positive. -/
  | both (d : Date) (t : Clock) (offset : Option Int)
  deriving DecidableEq, Repr

namespace Date

def isLeap (year : Nat) : Bool := year % 4 == 0 && (year % 100 != 0 || year % 400 == 0)

def daysIn (year month : Nat) : Nat :=
  if month = 2 then (if isLeap year then 29 else 28)
  else if month = 4 ∨ month = 6 ∨ month = 9 ∨ month = 11 then 30
  else 31

/-- The calendar has no year zero. -/
def exists? (d : Date) : Bool :=
  decide (1 ≤ d.year) && decide (d.year ≤ 9999) && decide (1 ≤ d.month) && decide (d.month ≤ 12) &&
    decide (1 ≤ d.day) && decide (d.day ≤ daysIn d.year d.month)

end Date

/-- Digits of `n`, filled up with zeros on the left. -/
def padded (width n : Nat) : String :=
  let ds := Nat.toDigits 10 n
  String.ofList (List.replicate (width - ds.length) '0' ++ ds)

namespace Date

def text (d : Date) : String := s!"{padded 4 d.year}-{padded 2 d.month}-{padded 2 d.day}"

def fields (d : Date) : List Nat := [d.year, d.month, d.day]

end Date

namespace Clock

/-- The microseconds are written only if there are any. -/
def text (t : Clock) : String :=
  let fraction := if t.microsecond = 0 then "" else "." ++ padded 6 t.microsecond
  s!"{padded 2 t.hour}:{padded 2 t.minute}:{padded 2 t.second}{fraction}"

/-- Zero seconds are left out, unless microseconds follow. -/
def fields (t : Clock) : List Nat :=
  if t.microsecond ≠ 0 then [t.hour, t.minute, t.second, t.microsecond]
  else if t.second ≠ 0 then [t.hour, t.minute, t.second]
  else [t.hour, t.minute]

end Clock

namespace Moment

def offsetText (minutes : Int) : String :=
  let sign := if minutes < 0 then "-" else "+"
  s!"{sign}{padded 2 (minutes.natAbs / 60)}:{padded 2 (minutes.natAbs % 60)}"

/-- The plain form: date, blank, time, offset. -/
def text : Moment → String
  | .date d => d.text
  | .clock t => t.text
  | .both d t offset => d.text ++ " " ++ t.text ++ (offset.map offsetText).getD ""

def fieldList (ns : List Nat) : String := ", ".intercalate (ns.map toString)

/-- An offset as whole days, rounded down, and the seconds that remain. -/
def offsetDescribed (minutes : Int) : String :=
  if minutes = 0 then "datetime.timezone.utc"
  else
    let days := minutes.fdiv 1440
    let seconds := (minutes.fmod 1440) * 60
    let parts :=
      (if days = 0 then [] else [s!"days={days}"]) ++
        (if seconds = 0 then [] else [s!"seconds={seconds}"])
    "datetime.timezone(datetime.timedelta(" ++ ", ".intercalate parts ++ "))"

/-- The form that names the kind of moment and its fields. -/
def described : Moment → String
  | .date d => s!"datetime.date({fieldList d.fields})"
  | .clock t => s!"datetime.time({fieldList t.fields})"
  | .both d t none => s!"datetime.datetime({fieldList (d.fields ++ t.fields)})"
  | .both d t (some o) =>
    s!"datetime.datetime({fieldList (d.fields ++ t.fields)}, tzinfo={offsetDescribed o})"

end Moment

end LinkOverride
