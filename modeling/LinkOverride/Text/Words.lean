import LinkOverride.Text.Blank

/-!
# Cutting text apart

Text is cut at its edges, into words, into lines and at a separator. Words are the longest runs
without a blank; a separator cuts at each of its occurrences, so that one more field than
separators results.
-/

namespace LinkOverride.Text

/-! ## Edges -/

def trimLeft (cs : List Char) : List Char := cs.dropWhile isBlank

def trimRight (cs : List Char) : List Char := (cs.reverse.dropWhile isBlank).reverse

def trim (cs : List Char) : List Char := trimRight (trimLeft cs)

/-- The text without the blanks at its two ends. -/
def strip (s : String) : String := String.ofList (trim s.toList)

@[simp] theorem toList_strip (s : String) : (strip s).toList = trim s.toList := by
  simp [strip]

theorem trim_of_not_blank {cs : List Char} (h : ∀ c ∈ cs, isBlank c = false) : trim cs = cs := by
  have hleft : ∀ xs : List Char, (∀ c ∈ xs, isBlank c = false) → xs.dropWhile isBlank = xs := by
    intro xs hxs
    cases xs with
    | nil => rfl
    | cons c xs => rw [List.dropWhile_cons, hxs c List.mem_cons_self, if_neg Bool.false_ne_true]
  have hright := hleft cs.reverse fun c hc => h c (List.mem_reverse.1 hc)
  rw [trim, trimLeft, hleft cs h, trimRight, hright, List.reverse_reverse]

/-! ## Words -/

/-- What follows the first word. -/
def afterWord (cs : List Char) : List Char := (trimLeft cs).dropWhile fun c => !isBlank c

/-- The words of a text, by one pass from the right: a blank closes the word behind it. -/
def splitWords : List Char → List (List Char)
  | [] => []
  | c :: cs =>
    if isBlank c then splitWords cs
    else match cs with
      | [] => [[c]]
      | d :: _ =>
        if isBlank d then [c] :: splitWords cs
        else match splitWords cs with
          | [] => [[c]]
          | w :: ws => (c :: w) :: ws

theorem splitWords_blank {c : Char} (h : isBlank c = true) (cs : List Char) :
    splitWords (c :: cs) = splitWords cs := by
  rw [splitWords.eq_def]
  simp [h]

/-- The first word is the longest run without a blank, and the others follow it. -/
theorem splitWords_cons {c : Char} (h : isBlank c = false) (cs : List Char) :
    splitWords (c :: cs) =
      (c :: cs.takeWhile fun d => !isBlank d) :: splitWords (cs.dropWhile fun d => !isBlank d) := by
  induction cs generalizing c with
  | nil => simp [splitWords, h]
  | cons d ds ih =>
    rw [splitWords.eq_def]
    cases hd : isBlank d with
    | true => simp [h, hd]
    | false => simp [h, hd, ih hd]

theorem splitWords_trimLeft (cs : List Char) : splitWords (trimLeft cs) = splitWords cs := by
  induction cs with
  | nil => rfl
  | cons c cs ih =>
    rw [trimLeft, List.dropWhile_cons]
    split
    · next h => rw [splitWords_blank h, ← ih, trimLeft]
    · rfl

theorem dropWhile_cases (p : Char → Bool) (cs : List Char) :
    cs.dropWhile p = [] ∨ ∃ d ds, cs.dropWhile p = d :: ds ∧ p d = false := by
  have hhead := List.head?_dropWhile_not p cs
  cases h : cs.dropWhile p with
  | nil => exact .inl rfl
  | cons d ds =>
    rw [h] at hhead
    exact .inr ⟨d, ds, rfl, by simpa using hhead⟩

theorem trimLeft_cases (cs : List Char) :
    trimLeft cs = [] ∨ ∃ d ds, trimLeft cs = d :: ds ∧ isBlank d = false :=
  dropWhile_cases isBlank cs

/-- What follows the first word has the other words. -/
theorem splitWords_afterWord {cs w : List Char} {ws : List (List Char)}
    (h : splitWords cs = w :: ws) : splitWords (afterWord cs) = ws := by
  rw [← splitWords_trimLeft] at h
  rcases trimLeft_cases cs with hnil | ⟨d, ds, hcons, hd⟩
  · rw [hnil] at h
    exact absurd h (by simp [splitWords])
  · rw [hcons, splitWords_cons hd] at h
    rw [afterWord, hcons, List.dropWhile_cons, hd, ← (List.cons.inj h).2]
    rfl

/-- A text with a word in it is not blank. -/
theorem trim_ne_nil {cs w : List Char} {ws : List (List Char)} (h : splitWords cs = w :: ws) :
    trim cs ≠ [] := by
  rw [← splitWords_trimLeft] at h
  rcases trimLeft_cases cs with hnil | ⟨d, ds, hcons, hd⟩
  · rw [hnil] at h
    exact absurd h (by simp [splitWords])
  · rw [trim, hcons, trimRight, Ne, List.reverse_eq_nil_iff]
    intro hnil
    have hall := List.all_takeWhile (p := isBlank) (l := (d :: ds).reverse)
    have hself := List.takeWhile_append_dropWhile (p := isBlank) (l := (d :: ds).reverse)
    rw [hnil, List.append_nil] at hself
    rw [hself, List.all_eq_true] at hall
    have hblank := hall d (List.mem_reverse.2 List.mem_cons_self)
    rw [hd] at hblank
    exact absurd hblank Bool.false_ne_true

def words (s : String) : List String := (splitWords s.toList).map String.ofList

/-! ## Lines -/

/-- The pieces between line ends; what follows the last line end is a line if it is not empty. -/
def splitLines : List Char → List (List Char)
  | [] => []
  | '\r' :: '\n' :: cs => [] :: splitLines cs
  | c :: cs =>
    if isLineEnd c then [] :: splitLines cs
    else match splitLines cs with
      | [] => [[c]]
      | l :: ls => (c :: l) :: ls

def lines (s : String) : List String := (splitLines s.toList).map String.ofList

/-- Both other spellings of a line end become a line feed. -/
def unifyLineEnds : List Char → List Char
  | [] => []
  | '\r' :: '\n' :: cs => '\n' :: unifyLineEnds cs
  | c :: cs => (if c = '\r' then '\n' else c) :: unifyLineEnds cs

/-! ## Separators -/

/-- The fields of a text, at least one. -/
def splitAtSep (sep : Char) : List Char → List (List Char)
  | [] => [[]]
  | c :: cs =>
    if c = sep then [] :: splitAtSep sep cs
    else match splitAtSep sep cs with
      | [] => [[c]]
      | f :: fs => (c :: f) :: fs

theorem splitAtSep_ne_nil (sep : Char) (cs : List Char) : splitAtSep sep cs ≠ [] := by
  cases cs with
  | nil => simp [splitAtSep]
  | cons c cs =>
    rw [splitAtSep]
    split
    · simp
    · split <;> simp

theorem length_splitAtSep (sep : Char) (cs : List Char) :
    (splitAtSep sep cs).length = cs.count sep + 1 := by
  induction cs with
  | nil => rfl
  | cons c cs ih =>
    rw [splitAtSep]
    split
    · next h => subst h; simp [ih]
    · next h =>
      split
      · next hn => exact absurd hn (splitAtSep_ne_nil sep cs)
      · next f fs hf =>
        rw [hf] at ih
        simpa [List.count_cons, h] using ih

def joinSep (sep : Char) : List (List Char) → List Char
  | [] => []
  | [f] => f
  | f :: fs => f ++ sep :: joinSep sep fs

theorem joinSep_cons_cons (sep : Char) (f g : List Char) (fs : List (List Char)) :
    joinSep sep (f :: g :: fs) = f ++ sep :: joinSep sep (g :: fs) := rfl

/-- Joining the fields gives the text back. -/
theorem joinSep_splitAtSep (sep : Char) (cs : List Char) :
    joinSep sep (splitAtSep sep cs) = cs := by
  induction cs with
  | nil => rfl
  | cons c cs ih =>
    rw [splitAtSep]
    split
    · next h =>
      subst h
      cases hs : splitAtSep c cs with
      | nil => exact absurd hs (splitAtSep_ne_nil c cs)
      | cons f fs => rw [joinSep_cons_cons, ← hs, ih]; rfl
    · split
      · next hn => exact absurd hn (splitAtSep_ne_nil sep cs)
      · next f fs hf =>
        rw [hf] at ih
        cases fs with
        | nil => simpa [joinSep] using ih
        | cons g gs => simpa [joinSep_cons_cons] using ih

/-! ## Occurrences -/

/-- Whether `run` stands somewhere in the text. -/
def holdsRun (run : List Char) : List Char → Bool
  | [] => run.isEmpty
  | c :: cs => run.isPrefixOf (c :: cs) || holdsRun run cs

theorem holdsRun_iff {run cs : List Char} : holdsRun run cs = true ↔ run <:+: cs := by
  induction cs with
  | nil => simp [holdsRun]
  | cons c cs ih => rw [holdsRun, Bool.or_eq_true, ih, List.isPrefixOf_iff_prefix, List.infix_cons_iff]

/-! ## Joining -/

def unwords (ws : List String) : String := " ".intercalate ws

end LinkOverride.Text
