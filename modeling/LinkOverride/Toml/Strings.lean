import LinkOverride.Toml.Cursor

/-!
# Strings

Strings in single quotes are taken literally, strings in double quotes know escapes. Three quotes
open a string of several lines. A backslash at a line's end joins the lines and drops the blanks
between them.
-/

namespace LinkOverride.Toml

/-- Puts a character in front of a text that was read. -/
def cons (c : Char) (r : Except Fault (List Char × List Char)) :
    Except Fault (List Char × List Char) :=
  r.map fun (s, rest) => (c :: s, rest)

/-! ## Literal strings -/

def literal : List Char → Except Fault (List Char × List Char)
  | [] => .error .malformed
  | '\'' :: cs => .ok ([], cs)
  | c :: cs => if isBarred c then .error .malformed else cons c (literal cs)

def literalBlock : List Char → Except Fault (List Char × List Char)
  | [] => .error .malformed
  | '\'' :: '\'' :: '\'' :: cs => .ok ([], cs)
  | c :: cs => if isBarredInBlock c then .error .malformed else cons c (literalBlock cs)

/-! ## Escapes -/

def hexValue? (c : Char) : Option Nat :=
  if c.isDigit then some (c.toNat - 48)
  else if 'a' ≤ c ∧ c ≤ 'f' then some (c.toNat - 87)
  else if 'A' ≤ c ∧ c ≤ 'F' then some (c.toNat - 55)
  else none

def hexNumber? (cs : List Char) : Option Nat :=
  cs.foldl (fun n c => do return 16 * (← n) + (← hexValue? c)) (some 0)

/-- Surrogates are no characters. -/
def scalar? (n : Nat) : Option Char :=
  if n.isValidChar then some (Char.ofNat n) else none

def codePoint? (digits : List Char) : Option Char := (hexNumber? digits).bind scalar?

/-- The character that a letter behind a backslash stands for. -/
def letterEscape? : Char → Option Char
  | 'b' => some '\x08'
  | 't' => some '\t'
  | 'n' => some '\n'
  | 'f' => some '\x0c'
  | 'r' => some '\r'
  | '"' => some '"'
  | '\\' => some '\\'
  | _ => none

/-- What stands behind a backslash, unless it ends a line. -/
def escape (cs : List Char) : Except Fault (Char × List Char) :=
  match cs with
  | 'u' :: a :: b :: c :: d :: rest =>
    match codePoint? [a, b, c, d] with
    | some x => .ok (x, rest)
    | none => .error .malformed
  | 'U' :: a :: b :: c :: d :: e :: f :: g :: h :: rest =>
    match codePoint? [a, b, c, d, e, f, g, h] with
    | some x => .ok (x, rest)
    | none => .error .malformed
  | l :: rest =>
    match letterEscape? l with
    | some x => .ok (x, rest)
    | none => .error .malformed
  | [] => .error .malformed

theorem escape_shorter {cs rest : List Char} {x : Char} (h : escape cs = .ok (x, rest)) :
    rest.length < cs.length := by
  unfold escape at h
  split at h
  all_goals try split at h
  all_goals cases h
  all_goals simp only [List.length_cons]; omega

/-! ## Strings with escapes -/

def basic (cs : List Char) : Except Fault (List Char × List Char) :=
  match cs with
  | [] => .error .malformed
  | '"' :: rest => .ok ([], rest)
  | '\\' :: rest =>
    match _h : escape rest with
    | .ok (x, rest') => cons x (basic rest')
    | .error e => .error e
  | c :: rest => if isBarred c then .error .malformed else cons c (basic rest)
termination_by cs.length
decreasing_by
  · have := escape_shorter _h; simp only [List.length_cons]; omega
  · simp

/-- A backslash that ends a line, with the blanks behind it and at the start of the next lines. -/
def joinedLine? (cs : List Char) : Option (List Char) :=
  match skipGap cs with
  | '\n' :: rest => some (rest.dropWhile fun c => isGap c || c == '\n')
  | _ => none

theorem joinedLine?_shorter {cs rest : List Char} (h : joinedLine? cs = some rest) :
    rest.length < cs.length := by
  unfold joinedLine? at h
  split at h
  · next r hr =>
    cases h
    have h1 := skipGap_length_le cs
    have h2 := (List.dropWhile_sublist (p := fun c => isGap c || c == '\n') (l := r)).length_le
    rw [hr] at h1
    simp only [List.length_cons] at h1
    omega
  · cases h

def basicBlock (cs : List Char) : Except Fault (List Char × List Char) :=
  match cs with
  | [] => .error .malformed
  | '"' :: '"' :: '"' :: rest => .ok ([], rest)
  | '\\' :: rest =>
    match _hj : joinedLine? rest with
    | some rest' => basicBlock rest'
    | none =>
      match _h : escape rest with
      | .ok (x, rest') => cons x (basicBlock rest')
      | .error e => .error e
  | c :: rest => if isBarredInBlock c then .error .malformed else cons c (basicBlock rest)
termination_by cs.length
decreasing_by
  · have := joinedLine?_shorter _hj; simp only [List.length_cons]; omega
  · have := escape_shorter _h; simp only [List.length_cons]; omega
  · simp

/-! ## Any string -/

/-- Up to two quotes before the three that close a block belong to the text. -/
def extraQuotes (quote : Char) (r : Except Fault (List Char × List Char)) :
    Except Fault (List Char × List Char) := do
  let (s, rest) ← r
  match rest with
  | a :: b :: rest' =>
    if a = quote then
      if b = quote then return (s ++ [quote, quote], rest') else return (s ++ [quote], b :: rest')
    else return (s, rest)
  | [a] => if a = quote then return (s ++ [quote], []) else return (s, rest)
  | [] => return (s, rest)

/-- A line end right behind the opening quotes does not count. -/
def skipFirstLineEnd : List Char → List Char
  | '\n' :: cs => cs
  | cs => cs

/-- A string on one line, from its opening quote. -/
def oneLine? : List Char → Option (Except Fault (List Char × List Char))
  | '"' :: cs => some (basic cs)
  | '\'' :: cs => some (literal cs)
  | _ => none

/-- Any string, from its opening quote. -/
def string? : List Char → Option (Except Fault (List Char × List Char))
  | '"' :: '"' :: '"' :: cs => some (extraQuotes '"' (basicBlock (skipFirstLineEnd cs)))
  | '\'' :: '\'' :: '\'' :: cs => some (extraQuotes '\'' (literalBlock (skipFirstLineEnd cs)))
  | cs => oneLine? cs

end LinkOverride.Toml
