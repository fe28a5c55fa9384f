/-!
# Reading from the front

A reader takes what it understands from the front of a text and leaves the rest.
-/

namespace LinkOverride.Toml

inductive Fault
  /-- The text is no document. -/
  | malformed
  /-- A whole number has too many digits to be read. -/
  | tooLong (digits : Nat)
  deriving DecidableEq, Repr

def isGap (c : Char) : Bool := c == ' ' || c == '\t'

def skipGap (cs : List Char) : List Char := cs.dropWhile isGap

def isControl (c : Char) : Bool := decide (c.toNat < 32) || c.toNat == 127

/-- What may not stand in a line: controls other than the tab. -/
def isBarred (c : Char) : Bool := isControl c && c != '\t'

/-- What may not stand in a text of several lines. -/
def isBarredInBlock (c : Char) : Bool := isBarred c && c != '\n'

/-- A comment ends before the line end. -/
def skipComment (cs : List Char) : Except Fault (List Char) :=
  match cs with
  | '#' :: rest =>
    if (rest.takeWhile (· != '\n')).any isBarred then .error .malformed
    else .ok (rest.dropWhile (· != '\n'))
  | _ => .ok cs

theorem skipGap_length_le (cs : List Char) : (skipGap cs).length ≤ cs.length :=
  (List.dropWhile_sublist _).length_le

/-- Blanks, line ends and comments. -/
def skipLines : Nat → List Char → Except Fault (List Char)
  | 0, cs => .ok cs
  | fuel + 1, cs => do
    let rest := cs.dropWhile fun c => isGap c || c == '\n'
    match rest with
    | '#' :: _ => skipLines fuel (← skipComment rest)
    | _ => return rest

/-- Two characters end a line as one does. -/
def unifyLines : List Char → List Char
  | [] => []
  | '\r' :: '\n' :: cs => '\n' :: unifyLines cs
  | c :: cs => c :: unifyLines cs

end LinkOverride.Toml
