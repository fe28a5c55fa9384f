import LinkOverride.Failure
import LinkOverride.Keyed

/-!
# Templates

A template holds placeholders: a percent sign, a name in parentheses, and a letter for the form in
which the item of that name is written, with flags, a width and a precision before it. Two percent
signs stand for one. A placeholder without a name takes the item of the one before it, or all items,
if that has not been used yet.
-/

namespace LinkOverride.Text.Template

/-! ## What can be written -/

inductive Item
  | text (s : String)
  /-- The answer no, which counts as the number zero. -/
  | no
  /-- Anything of which only the text is known. -/
  | other (shown : String)
  deriving DecidableEq, Repr

namespace Item

/-- The text of an item among others. -/
def shown : Item → String
  | text s => quoted s
  | no => "False"
  | other t => t

/-- The text of an item on its own. -/
def plain : Item → String
  | text s => s
  | i => i.shown

/-- All items in one, each behind its name. -/
def all (items : Keyed Item) : Item :=
  let ts := items.map fun e => quoted e.1 ++ ": " ++ e.2.shown
  other ("\x7b" ++ ", ".intercalate ts ++ "\x7d")

end Item

structure Form where
  left : Bool
  plus : Bool
  gap : Bool
  long : Bool
  zero : Bool
  width : Nat
  precision : Option Nat
  letter : Char

/-! ## Reading a placeholder -/

def isFlag (c : Char) : Bool := "-+ #0".toList.contains c

/-- The text up to the parenthesis that closes `depth` open ones. -/
def closing? (depth : Nat) : List Char → Option (List Char × List Char)
  | [] => none
  | ')' :: cs =>
    if depth ≤ 1 then some ([], cs)
    else (closing? (depth - 1) cs).map fun (n, rest) => (')' :: n, rest)
  | '(' :: cs => (closing? (depth + 1) cs).map fun (n, rest) => ('(' :: n, rest)
  | c :: cs => (closing? depth cs).map fun (n, rest) => (c :: n, rest)

/-- The name of a placeholder, if it has one. -/
def name? (cs : List Char) : Except Failure (Option String × List Char) :=
  match cs with
  | '(' :: rest =>
    match closing? 1 rest with
    | some (n, rest) => .ok (some (String.ofList n), rest)
    | none => .error (.badValue .unfinishedPlaceholderName)
  | _ => .ok (none, cs)

def number (cs : List Char) : Nat := cs.foldl (fun n c => 10 * n + (c.toNat - 48)) 0

/-- The item that a placeholder without a name would take. -/
inductive Supply
  | fresh (i : Item)
  | used

def mostWidth : Nat := 9223372036854775807
def mostPrecision : Nat := 2147483647

/-- A width or a precision, written out or taken from the items. -/
def size (most : Nat) (excess : ValueFault) (supply : Supply) (cs : List Char) :
    Except Failure (Nat × Supply × List Char) :=
  match cs with
  | '*' :: rest =>
    match supply with
    | .fresh .no => .ok (0, .used, rest)
    | _ => .error .wrongKind
  | _ =>
    let n := number (cs.takeWhile Char.isDigit)
    if most < n then .error (.badValue excess) else .ok (n, supply, cs.dropWhile Char.isDigit)

def skipLength : List Char → List Char
  | c :: cs => if c = 'h' ∨ c = 'l' ∨ c = 'L' then cs else c :: cs
  | [] => []

def form (supply : Supply) (cs : List Char) : Except Failure (Form × Supply × List Char) := do
  let flags := cs.takeWhile isFlag
  let (width, supply, rest) ← size mostWidth .widthTooBig supply (cs.dropWhile isFlag)
  let (precision, supply, rest) ← match rest with
    | '.' :: rest => do
      let (p, supply, rest) ← size mostPrecision .precisionTooBig supply rest
      pure (some p, supply, rest)
    | rest => pure (none, supply, rest)
  match skipLength rest with
  | [] => .error (.badValue .unfinishedPlaceholder)
  | letter :: rest =>
    return (⟨flags.contains '-', flags.contains '+', flags.contains ' ', flags.contains '#',
      flags.contains '0', width, precision, letter⟩, supply, rest)

/-! ## Writing an item -/

def pad (f : Form) (fill : Char) (cs : List Char) : List Char :=
  let missing := f.width - cs.length
  if f.left then cs ++ List.replicate missing ' ' else List.replicate missing fill ++ cs

def inAscii (c : Char) : List Char := if c.toNat < 128 then [c] else codePointEscape c

def textForm (f : Form) (i : Item) : List Char :=
  let cs := if f.letter = 's' then i.plain.toList else i.shown.toList
  let cs := if f.letter = 'a' then cs.flatMap inAscii else cs
  pad f ' ' (match f.precision with | some p => cs.take p | none => cs)

/-- The digits of zero in a form. -/
def zeroDigits (f : Form) : List Char × List Char :=
  let places := f.precision.getD 6
  let point :=
    if places = 0 then (if f.long then ['.'] else []) else '.' :: List.replicate places '0'
  match f.letter.toLower with
  | 'e' => ([], '0' :: point ++ [if f.letter = 'E' then 'E' else 'e', '+', '0', '0'])
  | 'f' => ([], '0' :: point)
  | 'g' => ([], '0' :: (if f.long then '.' :: List.replicate (max places 1 - 1) '0' else []))
  | 'o' => (if f.long then ['0', 'o'] else [], List.replicate (max (f.precision.getD 1) 1) '0')
  | 'x' => (if f.long then ['0', f.letter] else [], List.replicate (max (f.precision.getD 1) 1) '0')
  | _ => ([], List.replicate (max (f.precision.getD 1) 1) '0')

/-- The only number among the items is zero. -/
def zeroForm (f : Form) : List Char :=
  let sign := if f.plus then ['+'] else if f.gap then [' '] else []
  let (lead, ds) := zeroDigits f
  let front := sign ++ lead
  if f.zero && !f.left then front ++ List.replicate (f.width - front.length - ds.length) '0' ++ ds
  else pad f ' ' (front ++ ds)

def charForm (f : Form) (i : Item) : Except Failure (List Char) :=
  match i with
  | .text s => if s.length = 1 then .ok (pad f ' ' s.toList) else .error .wrongKind
  | .no => .ok (pad f ' ' ['\x00'])
  | .other _ => .error .wrongKind

/-- The digits of a whole number need some room beside them. -/
def numberForm (f : Form) (i : Item) : Except Failure (List Char) :=
  match i with
  | .no =>
    if "diuoxX".toList.contains f.letter && decide (mostPrecision < f.precision.getD 0 + 3) then
      .error .tooLarge
    else .ok (zeroForm f)
  | _ => .error .wrongKind

/-- `index` is the place of the letter in the template. -/
def write (index : Nat) (f : Form) (i : Item) : Except Failure (List Char) :=
  if "sra".toList.contains f.letter then .ok (textForm f i)
  else if "diuoxXeEfFgG".toList.contains f.letter then numberForm f i
  else if f.letter = 'c' then charForm f i
  else
    let n := f.letter.toNat
    let c := if 31 ≤ n ∧ n < 127 then f.letter else '?'
    .error (.badValue
      (.unknownPlaceholder c.toString (String.ofList (Nat.toDigits 16 n)) index))

/-! ## Filling a template -/

def lookUp (items : Keyed Item) (name : Option String) (supply : Supply) : Except Failure Supply :=
  match name with
  | none => .ok supply
  | some n =>
    match items.find? n with
    | some i => .ok (.fresh i)
    | none => .error (.noSuchKey n)

def fillFrom (items : Keyed Item) (length : Nat) :
    Nat → Supply → List Char → Except Failure (List Char)
  | 0, _, cs => .ok cs
  | _, _, [] => .ok []
  | fuel + 1, supply, '%' :: '%' :: cs => do
    let rest ← fillFrom items length fuel supply cs
    return '%' :: rest
  | fuel + 1, supply, '%' :: cs => do
    let (name, cs) ← name? cs
    let supply ← lookUp items name supply
    let (f, supply, cs) ← form supply cs
    match supply with
    | .used => .error .wrongKind
    | .fresh i => do
      let front ← write (length - cs.length - 1) f i
      let rest ← fillFrom items length fuel .used cs
      return front ++ rest
  | fuel + 1, supply, c :: cs => do
    let rest ← fillFrom items length fuel supply cs
    return c :: rest

/-- The template with its placeholders filled. -/
def fill (items : Keyed Item) (template : String) : Except Failure String :=
  let cs := template.toList
  (fillFrom items cs.length cs.length (.fresh (.all items)) cs).map String.ofList

end LinkOverride.Text.Template
