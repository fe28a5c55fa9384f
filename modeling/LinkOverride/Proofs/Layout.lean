import LinkOverride.Request
import Mathlib.Data.List.TakeWhile

/-!
# How a line is laid out

A line is words with blanks around them. Blanks at the two ends of a text make no difference to what
it says, and a text that ends in a blank closes its last word, so the words of what follows are words
of their own.

From this comes the layout of the one request that takes a value: two words, and then the value with
whatever blanks stand inside it, down to the last character that is not blank.
-/

namespace LinkOverride

namespace Text

variable {c : Char} {front cs rest back w : List Char} {ws : List (List Char)}

/-! ## Blank text -/

/-- A text of blanks. -/
abbrev Blank (cs : List Char) : Prop := ∀ c ∈ cs, isBlank c = true

theorem blank_takeWhile (cs : List Char) : Blank (cs.takeWhile isBlank) :=
  fun _ hc => List.mem_takeWhile_imp hc

theorem trimLeft_of_blank (h : Blank cs) : trimLeft cs = [] :=
  List.dropWhile_eq_nil_iff.2 h

theorem trimLeft_append (h : Blank front) (cs : List Char) :
    trimLeft (front ++ cs) = trimLeft cs :=
  List.dropWhile_append_of_pos h

theorem trimRight_append (h : Blank back) (cs : List Char) :
    trimRight (cs ++ back) = trimRight cs := by
  have hback : Blank back.reverse := fun c hc => h c (List.mem_reverse.1 hc)
  rw [trimRight, List.reverse_append, List.dropWhile_append_of_pos hback, trimRight]

/-- **Blanks at the two ends** are cut off, however many there are. -/
theorem trim_surrounded (hfront : Blank front) (hback : Blank back) (cs : List Char) :
    trim (front ++ cs ++ back) = trim cs := by
  rw [trim, List.append_assoc, trimLeft_append hfront, trimLeft, List.dropWhile_append]
  split
  · next hempty =>
    have hblank : trimLeft cs = [] := List.isEmpty_iff.1 hempty
    rw [← trimLeft, trimLeft_of_blank hback, trim, hblank]
  · exact trimRight_append hback _

/-- What is cut off a text is blank. -/
theorem exists_blank_ends (cs : List Char) :
    ∃ back, Blank back ∧ cs = cs.takeWhile isBlank ++ trim cs ++ back := by
  refine ⟨((trimLeft cs).reverse.takeWhile isBlank).reverse, ?_, ?_⟩
  · intro c hc
    exact blank_takeWhile _ c (List.mem_reverse.1 hc)
  · rw [trim, trimRight, List.append_assoc, ← List.reverse_append, List.takeWhile_append_dropWhile,
      List.reverse_reverse, trimLeft, List.takeWhile_append_dropWhile]

theorem trim_trim (cs : List Char) : trim (trim cs) = trim cs := by
  obtain ⟨back, hback, hcs⟩ := exists_blank_ends cs
  have h := trim_surrounded (blank_takeWhile cs) hback (trim cs)
  rw [← hcs] at h
  exact h.symm

/-! ## Words -/

theorem splitWords_eq_nil_iff : splitWords cs = [] ↔ Blank cs := by
  rw [← splitWords_trimLeft]
  rcases trimLeft_cases cs with hnil | ⟨d, ds, hcons, hd⟩
  · rw [hnil]
    exact iff_of_true rfl (List.dropWhile_eq_nil_iff.1 hnil)
  · rw [hcons, splitWords_cons hd]
    refine iff_of_false (List.cons_ne_nil _ _) fun hblank => ?_
    rw [trimLeft_of_blank hblank] at hcons
    exact absurd hcons (by simp)

/-- A text whose last character, if there is one, is blank. -/
abbrev Closed (cs : List Char) : Prop := ∀ c ∈ cs.getLast?, isBlank c = true

theorem Closed.of_suffix (h : Closed cs) (hs : rest <:+ cs) : Closed rest := by
  intro c hc
  obtain ⟨before, rfl⟩ := hs
  refine h c ?_
  rw [List.getLast?_append, Option.mem_def.1 hc]
  rfl

/-- **After a blank** the words are words of their own. -/
theorem splitWords_append (h : Closed front) (rest : List Char) :
    splitWords (front ++ rest) = splitWords front ++ splitWords rest := by
  induction front with
  | nil => rfl
  | cons c cs ih =>
    cases cs with
    | nil =>
      have hc : isBlank c = true := h c rfl
      rw [List.singleton_append, splitWords_blank hc, splitWords_blank hc]
      rfl
    | cons d ds =>
      have hrest := ih (h.of_suffix (List.suffix_cons c _))
      rw [List.cons_append]
      cases hc : isBlank c with
      | true => rw [splitWords_blank hc, splitWords_blank hc, hrest]
      | false =>
        rw [splitWords.eq_def, splitWords.eq_def (c :: d :: ds)]
        simp only [hc, Bool.false_eq_true, if_false, List.cons_append] at hrest ⊢
        cases hd : isBlank d with
        | true => simp only [if_true, hrest, List.cons_append]
        | false =>
          rw [hrest, splitWords_cons hd]
          rfl

/-- A word of a closed text ends before the text does. -/
theorem afterWord_append (h : Closed front) (hw : splitWords front ≠ []) (rest : List Char) :
    afterWord (front ++ rest) = afterWord front ++ rest := by
  rcases trimLeft_cases front with hnil | ⟨d, ds, hcons, hd⟩
  · exact absurd (splitWords_eq_nil_iff.2 (List.dropWhile_eq_nil_iff.1 hnil)) hw
  · have hleft : trimLeft (front ++ rest) = trimLeft front ++ rest := by
      rw [trimLeft, List.dropWhile_append, ← trimLeft, hcons]
      rfl
    rw [afterWord, hleft, List.dropWhile_append, ← afterWord]
    refine if_neg ?_
    intro hempty
    have hne : trimLeft front ≠ [] := by
      rw [hcons]
      exact List.cons_ne_nil d ds
    have hclosed : Closed (trimLeft front) := h.of_suffix (List.dropWhile_suffix _)
    have hblank := hclosed _ (List.getLast?_eq_some_getLast hne)
    have hword :=
      List.dropWhile_eq_nil_iff.1 (List.isEmpty_iff.1 hempty) _ (List.getLast_mem hne)
    rw [hblank] at hword
    exact absurd hword (by simp)

theorem Closed.append_blank (h : Blank back) (hne : back ≠ []) (front : List Char) :
    Closed (front ++ back) := by
  intro c hc
  rw [List.getLast?_append, List.getLast?_eq_some_getLast hne] at hc
  rw [← Option.some.inj hc]
  exact h _ (List.getLast_mem hne)

/-- A text of one word. -/
abbrev IsWord (w : List Char) : Prop := w ≠ [] ∧ ∀ c ∈ w, isBlank c = false

/-- Of a given text this can be computed. -/
theorem isWord_iff : IsWord w ↔ w.isEmpty = false ∧ w.any isBlank = false := by
  rw [List.isEmpty_eq_false_iff, List.any_eq_false]
  simp

theorem isWord_of_mem_splitWords (h : w ∈ splitWords cs) : IsWord w := by
  induction cs generalizing w with
  | nil => exact absurd h List.not_mem_nil
  | cons c cs ih =>
    rw [splitWords.eq_def] at h
    dsimp only at h
    split at h
    · exact ih h
    · next hc =>
      have hsingle : IsWord [c] :=
        ⟨List.cons_ne_nil c [], fun d hd => by simpa [List.mem_singleton.1 hd] using hc⟩
      split at h
      · rw [List.mem_singleton.1 h]
        exact hsingle
      · split at h
        · rcases List.mem_cons.1 h with rfl | h
          · exact hsingle
          · exact ih h
        · split at h
          · rw [List.mem_singleton.1 h]
            exact hsingle
          · next v vs hsplit =>
            rw [hsplit] at ih
            rcases List.mem_cons.1 h with rfl | h
            · obtain ⟨-, hv⟩ := ih List.mem_cons_self
              exact ⟨List.cons_ne_nil c v, List.forall_mem_cons.2 ⟨hsingle.2 c (by simp), hv⟩⟩
            · exact ih (List.mem_cons_of_mem v h)

/-- A word with a blank behind it, or with nothing, is the first word. -/
theorem splitWords_word (h : IsWord w) (hback : ∀ c ∈ back.head?, isBlank c = true) :
    splitWords (w ++ back) = w :: splitWords back := by
  obtain ⟨hne, hw⟩ := h
  obtain ⟨c, w, rfl⟩ := List.exists_cons_of_ne_nil hne
  have hrun : ∀ d ∈ w, (!isBlank d) = true := by
    intro d hd
    rw [hw d (List.mem_cons_of_mem c hd)]
    rfl
  have htake : back.takeWhile (fun d => !isBlank d) = [] := by
    cases back with
    | nil => rfl
    | cons d ds => exact List.takeWhile_cons_of_neg (by simp [hback d rfl])
  have hdrop : back.dropWhile (fun d => !isBlank d) = back := by
    cases back with
    | nil => rfl
    | cons d ds => exact List.dropWhile_cons_of_neg (by simp [hback d rfl])
  rw [List.cons_append, splitWords_cons (hw c List.mem_cons_self),
    List.takeWhile_append_of_pos hrun, List.dropWhile_append_of_pos hrun, htake, hdrop,
    List.append_nil]

/-- **Words joined by blanks** are the words of what they are joined to. -/
theorem words_unwords {ws : List String} (h : ∀ w ∈ ws, IsWord w.toList) :
    words (unwords ws) = ws := by
  induction ws with
  | nil => rfl
  | cons w ws ih =>
    have hw := h w List.mem_cons_self
    have hrest := ih fun v hv => h v (List.mem_cons_of_mem w hv)
    cases ws with
    | nil =>
      rw [unwords, String.intercalate_singleton, words, ← List.append_nil w.toList,
        splitWords_word hw (by simp)]
      exact congrArg (· :: []) w.ofList_toList
    | cons v vs =>
      have hblank : isBlank ' ' = true := by decide
      rw [unwords, String.intercalate_cons_cons, words, String.toList_append, String.toList_append,
        List.append_assoc, splitWords_word hw (by simp [hblank])]
      refine congrArg₂ List.cons w.ofList_toList ?_
      show (splitWords (' ' :: (unwords (v :: vs)).toList)).map String.ofList = v :: vs
      rw [splitWords_blank hblank]
      exact hrest

/-- Two rows of words that are joined to the same text are the same. -/
theorem words_eq_of_unwords_eq {s : String} {ws : List String} (h : ∀ w ∈ ws, IsWord w.toList)
    (he : unwords (words s) = unwords ws) : words s = ws := by
  have hwords : ∀ w ∈ words s, IsWord w.toList := by
    intro w hw
    obtain ⟨v, hv, rfl⟩ := List.mem_map.1 hw
    rw [String.toList_ofList]
    exact isWord_of_mem_splitWords hv
  rw [← words_unwords hwords, he, words_unwords h]

theorem afterWord_suffix (cs : List Char) : afterWord cs <:+ cs :=
  (List.dropWhile_suffix _).trans (List.dropWhile_suffix _)

/-- What follows a word is empty, or begins with a blank. -/
theorem afterWord_cases (cs : List Char) :
    afterWord cs = [] ∨ ∃ d ds, afterWord cs = d :: ds ∧ isBlank d = true := by
  have hcases := dropWhile_cases (fun c => !isBlank c) (trimLeft cs)
  simp only [Bool.not_eq_false'] at hcases
  exact hcases

end Text

namespace Override.Verb

variable {line : String} {v : Verb}

/-- The words that ask for a verb. Their case counts. -/
def words : Verb → List String
  | on => ["mac.changer", "on"]
  | off => ["mac.changer", "off"]

/-- **A verb is asked for** by its two words, whatever blanks stand around them. -/
theorem ofLine?_eq_some_iff : ofLine? line = some v ↔ Text.words line = v.words := by
  constructor
  · intro h
    have hword : ∀ w ∈ v.words, Text.IsWord w.toList := by
      simp only [Text.isWord_iff]
      cases v <;> decide
    have htext : v.text = Text.unwords v.words := by
      cases v <;> decide
    exact Text.words_eq_of_unwords_eq hword ((text_of_ofLine? h).symm.trans htext)
  · intro h
    rw [ofLine?, h]
    cases v <;> decide

theorem ofLine?_eq_none_iff : ofLine? line = none ↔ ∀ v : Verb, Text.words line ≠ v.words := by
  rw [Option.eq_none_iff_forall_ne_some]
  exact forall_congr' fun v => not_congr ofLine?_eq_some_iff

end Override.Verb

namespace Request

open Text (Blank Closed)

/-- **The line gives a value to a name**: it has two words, the first of which is `set` in any case,
and `value` is what stands behind them, without blanks at its ends. -/
def Sets (line name value : String) : Prop :=
  ∃ (verb : String) (front back : List Char),
    line.toList = front ++ value.toList ++ back ∧
      Text.words (String.ofList front) = [verb, name] ∧ Text.lower verb = "set" ∧
      Closed front ∧ Blank back ∧ value ≠ "" ∧ Text.strip value = value

/-- The line asks for the value of a name. -/
def Gets (line name : String) : Prop :=
  ∃ verb, Text.words line = [verb, name] ∧ Text.lower verb = "get"

/-- The line has at least three words, the first of which is `set` in any case. -/
def Assigns (line : String) : Prop :=
  ∃ verb name third rest,
    Text.words line = verb :: name :: third :: rest ∧ Text.lower verb = "set"

/-- The line has a first word, and is none of the requests that a session carries out itself. -/
def Foreign (line : String) : Prop :=
  ∃ first rest, Text.words line = first :: rest ∧ Text.lower first ∉ quitWords ∧
    Text.lower first ≠ "help" ∧ Text.lower first ≠ "status" ∧
    (¬∃ name, Gets line name) ∧ ¬Assigns line

variable {line name value : String}

theorem ofLine_of_gets (h : Gets line name) : ofLine line = .get name := by
  obtain ⟨verb, hwords, hverb⟩ := h
  rw [ofLine, hwords]
  dsimp only
  rw [hverb]
  rfl

/-- Three words of which the first is `set`. -/
theorem ofLine_of_words {verb third : String} {rest : List String}
    (hwords : Text.words line = verb :: name :: third :: rest) (hverb : Text.lower verb = "set") :
    ofLine line = .set name (thirdOn line) := by
  rw [ofLine, hwords]
  dsimp only
  rw [hverb]
  rfl

theorem words_of_ofLine (h : ofLine line = .set name value) :
    value = thirdOn line ∧ ∃ verb third rest,
      Text.words line = verb :: name :: third :: rest ∧ Text.lower verb = "set" := by
  rw [ofLine] at h
  split at h
  · exact absurd h (by simp)
  · next first rest hwords =>
    dsimp only at h
    split at h
    · exact absurd h (by simp)
    split at h
    · exact absurd h (by simp)
    split at h
    · exact absurd h (by simp)
    split at h
    · exact absurd h (by simp)
    · next hverb =>
      obtain ⟨rfl, rfl⟩ := Request.set.inj h
      exact ⟨rfl, first, _, _, hwords, hverb⟩
    · exact absurd h (by simp)

theorem assigns_of_ofLine (h : ofLine line = .set name value) : Assigns line := by
  obtain ⟨-, verb, third, rest, hwords, hverb⟩ := words_of_ofLine h
  exact ⟨verb, name, third, rest, hwords, hverb⟩

/-- **What a session leaves to the override** is each line that it does not carry out itself. -/
theorem ofLine_eq_other_iff : ofLine line = .other ↔ Foreign line := by
  constructor
  · intro h
    rw [ofLine] at h
    split at h
    · exact absurd h (by simp)
    · next first rest hwords =>
      dsimp only at h
      split at h
      · exact absurd h (by simp)
      · next hquit =>
        split at h
        · exact absurd h (by simp)
        · next hhelp =>
          split at h
          · exact absurd h (by simp)
          · next hstatus =>
            refine ⟨first, rest, hwords, fun hmem => hquit (List.contains_iff_mem.2 hmem), hhelp,
              hstatus, ?_, ?_⟩
            · intro hgets
              obtain ⟨name, verb, hwords', hverb⟩ := hgets
              obtain ⟨rfl, rfl⟩ := List.cons.inj (hwords.symm.trans hwords')
              rw [hverb] at h
              exact absurd h (by simp)
            · intro hassigns
              obtain ⟨verb, name, third, rest', hwords', hverb⟩ := hassigns
              obtain ⟨rfl, rfl⟩ := List.cons.inj (hwords.symm.trans hwords')
              rw [hverb] at h
              exact absurd h (by simp)
  · intro h
    obtain ⟨first, rest, hwords, hquit, hhelp, hstatus, hget, hset⟩ := h
    rw [ofLine, hwords]
    dsimp only
    rw [if_neg fun hmem => hquit (List.contains_iff_mem.1 hmem), if_neg hhelp, if_neg hstatus]
    split
    · next name hverb => exact absurd ⟨name, first, hwords, hverb⟩ hget
    · next name third rest hverb => exact absurd ⟨first, name, third, rest, hwords, hverb⟩ hset
    · rfl

/-- A verb of the override is no request of the session. -/
theorem ofLine_of_verb {v : Override.Verb} (h : Text.words line = v.words) :
    ofLine line = .other := by
  rw [ofLine, h]
  cases v <;> rfl

theorem ofLine_of_sets (h : Sets line name value) : ofLine line = .set name value := by
  obtain ⟨verb, front, back, hline, hwords, hverb, hclosed, hback, hne, hstrip⟩ := h
  have htrim : Text.trim value.toList = value.toList := by rw [← Text.toList_strip, hstrip]
  obtain ⟨w₁, ws, hfront, rfl, hws⟩ := List.map_eq_cons_iff.1 hwords
  obtain ⟨w₂, ws, rfl, rfl, hnil⟩ := List.map_eq_cons_iff.1 hws
  obtain rfl := List.map_eq_nil_iff.1 hnil
  rw [String.toList_ofList] at hfront
  -- The value is what stands behind the two words.
  have hsecond := Text.splitWords_afterWord hfront
  have hthird := Text.splitWords_afterWord hsecond
  have hclosed' : Closed (Text.afterWord front) := hclosed.of_suffix (Text.afterWord_suffix front)
  have hbehind : thirdOn line = value := by
    rw [thirdOn, hline, List.append_assoc, Text.afterWord_append hclosed (by rw [hfront]; simp),
      Text.afterWord_append hclosed' (by rw [hsecond]; simp), ← List.append_assoc,
      Text.trim_surrounded (Text.splitWords_eq_nil_iff.1 hthird) hback, htrim, String.ofList_toList]
  -- It has a word of its own, so that the line has a third one.
  have hvalue : Text.splitWords (value.toList ++ back) ≠ [] := by
    intro hnone
    have hblank : Blank value.toList := fun c hc =>
      Text.splitWords_eq_nil_iff.1 hnone c (List.mem_append_left _ hc)
    rw [Text.trim, Text.trimLeft_of_blank hblank] at htrim
    exact hne (String.toList_inj.1 htrim.symm)
  obtain ⟨w₃, rest, hrest⟩ := List.exists_cons_of_ne_nil hvalue
  have hline' : Text.words line =
      String.ofList w₁ :: String.ofList w₂ :: String.ofList w₃ :: rest.map String.ofList := by
    rw [Text.words, hline, List.append_assoc, Text.splitWords_append hclosed, hfront, hrest]
    rfl
  rw [ofLine_of_words hline' hverb, hbehind]

/-- **The layout of a line that gives a value to a name.** -/
theorem ofLine_eq_set_iff : ofLine line = .set name value ↔ Sets line name value := by
  refine ⟨fun h => ?_, ofLine_of_sets⟩
  obtain ⟨rfl, verb, third, rest, hwords, hverb⟩ := words_of_ofLine h
  obtain ⟨w₁, ws₁, hsplit, rfl, hrest₁⟩ := List.map_eq_cons_iff.1 hwords
  obtain ⟨w₂, ws₂, rfl, rfl, hrest₂⟩ := List.map_eq_cons_iff.1 hrest₁
  obtain ⟨w₃, ws₃, rfl, rfl, -⟩ := List.map_eq_cons_iff.1 hrest₂
  have hthird := Text.splitWords_afterWord (Text.splitWords_afterWord hsplit)
  have hcases := Text.afterWord_cases (Text.afterWord line.toList)
  have hsuffix := (Text.afterWord_suffix (Text.afterWord line.toList)).trans
    (Text.afterWord_suffix line.toList)
  generalize hcs : Text.afterWord (Text.afterWord line.toList) = cs at hthird hcases hsuffix
  obtain ⟨before, hbefore⟩ := hsuffix
  obtain ⟨back, hback, hends⟩ := Text.exists_blank_ends cs
  have hvalue : (thirdOn line).toList = Text.trim cs := by
    rw [thirdOn, hcs, String.toList_ofList]
  have hgap : cs.takeWhile Text.isBlank ≠ [] := by
    rcases hcases with rfl | ⟨d, ds, rfl, hd⟩
    · exact absurd hthird (by simp [Text.splitWords])
    · rw [List.takeWhile_cons_of_pos hd]
      exact List.cons_ne_nil d _
  have hblank := Text.blank_takeWhile cs
  have hline : line.toList = before ++ cs.takeWhile Text.isBlank ++ (Text.trim cs ++ back) := by
    rw [← hbefore, List.append_assoc, ← List.append_assoc _ (Text.trim cs), ← hends]
  have hclosed := Closed.append_blank hblank hgap before
  have hfront : Text.splitWords (before ++ cs.takeWhile Text.isBlank) = [w₁, w₂] := by
    have hrest : Text.splitWords (Text.trim cs ++ back) = w₃ :: ws₃ := by
      have hdrop := Text.splitWords_append (Closed.append_blank hblank hgap [])
        (Text.trim cs ++ back)
      rw [List.nil_append, Text.splitWords_eq_nil_iff.2 hblank, ← List.append_assoc, ← hends,
        hthird] at hdrop
      exact hdrop.symm
    rw [hline, Text.splitWords_append hclosed, hrest] at hsplit
    exact List.append_cancel_right (show _ = [w₁, w₂] ++ w₃ :: ws₃ from hsplit)
  refine ⟨String.ofList w₁, before ++ cs.takeWhile Text.isBlank, back, ?_, ?_, hverb, hclosed, hback,
    ?_, ?_⟩
  · rw [hvalue, hline, List.append_assoc _ _ back]
  · rw [Text.words, String.toList_ofList, hfront]
    rfl
  · intro hempty
    rw [hempty] at hvalue
    exact Text.trim_ne_nil hthird hvalue.symm
  · rw [Text.strip, hvalue, Text.trim_trim, ← hvalue, String.ofList_toList]

end Request

end LinkOverride
