import LinkOverride.Text.Alphanumeric
import LinkOverride.Text.Words

/-!
# Wrapping paragraphs

A paragraph is cut into pieces between which a line may end: runs of blanks, words, the parts of a
hyphenated word, and long dashes. Lines are filled with as many pieces as fit. Blanks at the edges
of lines are dropped, and a piece that is longer than a line is cut, behind a hyphen if it has one.
-/

namespace LinkOverride.Text

/-! ## Pieces -/

/-- The ASCII blanks; others are part of a word. -/
def isSpacing (c : Char) : Bool := c == ' ' || (decide (9 ≤ c.toNat) && decide (c.toNat ≤ 13))

/-- What may stand before a long dash. -/
def isWordEdge (c : Char) : Bool := isWordChar c || "!\"'&.,?".toList.contains c

/-- Letters on both sides of a hyphen; the underscore counts as one. -/
def isHyphenLetter (c : Char) : Bool := isLetter c || c == '_'

/-- Whether the text read so far, last character first, lets a hyphen divide. -/
def dividesBefore : List Char → Bool
  | a :: b :: cs =>
    (isHyphenLetter a && isHyphenLetter b) ||
      (isHyphenLetter a && b == '-' && cs.head?.any isHyphenLetter)
  | _ => false

/-- Whether the text behind a hyphen lets it divide. -/
def dividesAfter : List Char → Bool
  | a :: b :: cs =>
    isHyphenLetter a && (isHyphenLetter b || (b == '-' && cs.head?.any isHyphenLetter))
  | _ => false

/-- Two hyphens or more between words. -/
def startsDash (before after : List Char) : Bool :=
  let rest := after.dropWhile (· == '-')
  before.head?.any isWordEdge && decide (2 ≤ after.length - rest.length) &&
    rest.head?.any isWordChar

/-- The piece of a word from `word` on, which is what was read of it, last character first. -/
def wordPiece (before word : List Char) : List Char → List Char × List Char
  | [] => (word.reverse, [])
  | c :: cs =>
    let all := word ++ before
    if isSpacing c then (word.reverse, c :: cs)
    else if c = '-' ∧ dividesBefore all = true ∧ dividesAfter cs = true then
      ((c :: word).reverse, cs)
    else if startsDash all (c :: cs) then (word.reverse, c :: cs)
    else wordPiece before (c :: word) cs

/-- The first piece of a text that is not empty. -/
def firstPiece (before : List Char) (c : Char) (cs : List Char) : List Char × List Char :=
  if isSpacing c then (c :: cs.takeWhile isSpacing, cs.dropWhile isSpacing)
  else if startsDash before (c :: cs) then
    ((c :: cs).takeWhile (· == '-'), (c :: cs).dropWhile (· == '-'))
  else wordPiece before [c] cs

def piecesFrom : Nat → List Char → List Char → List (List Char)
  | _, _, [] => []
  | 0, _, cs => [cs]
  | fuel + 1, before, c :: cs =>
    let (p, rest) := firstPiece before c cs
    p :: piecesFrom fuel (p.reverse ++ before) rest

def pieces (cs : List Char) : List (List Char) := piecesFrom cs.length [] cs

/-- No character of a word is lost. -/
theorem wordPiece_append (before word cs : List Char) :
    (wordPiece before word cs).1 ++ (wordPiece before word cs).2 = word.reverse ++ cs := by
  induction cs generalizing word with
  | nil => simp [wordPiece]
  | cons c cs ih =>
    simp only [wordPiece]
    repeat' split
    · rfl
    · simp
    · rfl
    · simp [ih]

theorem firstPiece_append (before : List Char) (c : Char) (cs : List Char) :
    (firstPiece before c cs).1 ++ (firstPiece before c cs).2 = c :: cs := by
  simp only [firstPiece]
  repeat' split
  · simp
  · exact List.takeWhile_append_dropWhile
  · rw [wordPiece_append]; simp

/-- The pieces of a text make up the text. -/
theorem flatten_piecesFrom (fuel : Nat) (before cs : List Char) :
    (piecesFrom fuel before cs).flatten = cs := by
  induction fuel generalizing before cs with
  | zero => cases cs <;> simp [piecesFrom]
  | succ n ih =>
    cases cs with
    | nil => simp [piecesFrom]
    | cons c cs => simp [piecesFrom, ih, firstPiece_append]

theorem flatten_pieces (cs : List Char) : (pieces cs).flatten = cs := flatten_piecesFrom ..

/-! ## Lines -/

def isBlankPiece (p : List Char) : Bool := (trim p).isEmpty

/-- As many pieces as fit into a width, with the length that they take. -/
def fitting (width : Nat) : Nat → List (List Char) → List (List Char) × List (List Char) × Nat
  | used, [] => ([], [], used)
  | used, p :: ps =>
    if used + p.length ≤ width then
      let (line, rest, total) := fitting width (used + p.length) ps
      (p :: line, rest, total)
    else ([], p :: ps, used)

/-- The length up to and with the last hyphen of a text that is not all hyphens. -/
def lastHyphen? (cs : List Char) : Option Nat :=
  let behind := cs.reverse.takeWhile (· != '-')
  let upTo := cs.length - behind.length
  if (cs.take (upTo - 1)).any (· != '-') then some upTo else none

/-- Cuts a piece that is longer than a line, so that its front fits into `room`. -/
def cutPiece (room : Nat) (p : List Char) : List Char × List Char :=
  let n := if room < p.length then (lastHyphen? (p.take room)).getD room else room
  (p.take n, p.drop n)

/-- The pieces of the first line, and what is left. -/
def firstLine (width : Nat) (ps : List (List Char)) : List (List Char) × List (List Char) :=
  let (line, rest, used) := fitting width 0 ps
  match rest with
  | p :: ps =>
    if width < p.length then
      let (front, back) := cutPiece (width - used) p
      (line ++ [front], back :: ps)
    else (line, rest)
  | [] => (line, [])

def dropBlankEnd (line : List (List Char)) : List (List Char) :=
  match line.getLast? with
  | some p => if isBlankPiece p then line.dropLast else line
  | none => line

/-- Blanks at the start of the first line stay. -/
def linesOf (width : Nat) : Nat → Bool → List (List Char) → List (List Char)
  | 0, _, _ => []
  | _, _, [] => []
  | fuel + 1, isFirst, p :: ps =>
    let ps := if !isFirst && isBlankPiece p then ps else p :: ps
    let (line, rest) := firstLine width ps
    match dropBlankEnd line with
    | [] => linesOf width fuel isFirst rest
    | kept => kept.flatten :: linesOf width fuel false rest

/-- A paragraph in lines of at most `width` characters. -/
def wrap (width : Nat) (s : String) : List String :=
  let ps := pieces s.toList
  (linesOf width (s.length + ps.length + 1) true ps).map String.ofList

/-- Each run of ASCII blanks becomes one space. -/
def joinSpacing : List Char → List Char
  | [] => []
  | c :: cs =>
    if isSpacing c then
      if cs.head?.any isSpacing then joinSpacing cs else ' ' :: joinSpacing cs
    else c :: joinSpacing cs

/-- A text as one paragraph. -/
def paragraph (s : String) : String := String.ofList (trim (joinSpacing s.toList))

end LinkOverride.Text
