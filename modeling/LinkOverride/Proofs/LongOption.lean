import LinkOverride.Proofs.Restoration

/-!
# Options with a word, and one long spelling

The options for a profile and for a time limit have no letter. Each may be shortened as long as no
other option begins in the same way, may have its word attached behind an equals sign, and may be
given again. `wordsGiven` says which words a command line gives to such an option, by their spelling
alone. If the options are accepted, the last of these words is in force; if there is none, what the
settings say is in force.

Both options are one in this: they differ in their spelling, in the field that they put in force, and
in what a word stands for.
-/

namespace LinkOverride

inductive LongOption
  | profile
  | timeout
  deriving DecidableEq, Repr

namespace LongOption

def opt : LongOption → Opt
  | profile => .profile
  | timeout => .timeout

def spelling : LongOption → List Char
  | profile => "--profile".toList
  | timeout => "--timeout".toList

/-- The shortest spelling of the option that no other option shares. -/
def stem : LongOption → List Char
  | profile => "--p".toList
  | timeout => "--t".toList

/-- What a word stands for as the word of the option. -/
def value (l : LongOption) (w : String) : Except UsageFault Value :=
  match l with
  | profile => .ok (CommandLine.wordValue w)
  | timeout => CommandLine.timeoutValue w

/-- What is in force for the option. -/
def field (l : LongOption) (o : Options) : Value :=
  match l with
  | profile => o.profile
  | timeout => o.timeout

variable (l : LongOption)

/-- Whether a word is the option, and the word that is attached to it. -/
def given? (w : String) : Option (Option String) :=
  let (front, attached) := cutAtEquals w.toList
  if l.stem.isPrefixOf front && front.isPrefixOf l.spelling then
    some (attached.map String.ofList)
  else none

/-- The words that are given to the option, those attached to it and those behind it. -/
def wordsGiven : List String → List String
  | [] => []
  | w :: ws =>
    match l.given? w with
    | none => wordsGiven ws
    | some (some a) => a :: wordsGiven ws
    | some none =>
      match ws with
      | [] => []
      | next :: ws => next :: wordsGiven ws

section Given

variable {l} {w : String} (ws : List String)

theorem wordsGiven_of_none (h : l.given? w = none) :
    l.wordsGiven (w :: ws) = l.wordsGiven ws := by
  rw [wordsGiven.eq_def]
  simp only [h]

theorem wordsGiven_attached {a : String} (h : l.given? w = some (some a)) :
    l.wordsGiven (w :: ws) = a :: l.wordsGiven ws := by
  rw [wordsGiven.eq_def]
  simp only [h]

theorem wordsGiven_behind (next : String) (h : l.given? w = some none) :
    l.wordsGiven (w :: next :: ws) = next :: l.wordsGiven ws := by
  rw [wordsGiven.eq_def]
  simp only [h]

end Given

/-- The words put a value in force in place of another: the last word given to the option stands for
it, or none is given and it stays. -/
def Puts (words : List String) (before after : Value) : Prop :=
  match (l.wordsGiven words).getLast? with
  | none => after = before
  | some w => l.value w = .ok after

/-! ## Spellings -/

theorem spelling_eq : ∃ rest, l.spelling = '-' :: '-' :: rest ∧ rest.length = 7 := by
  cases l with
  | profile => exact ⟨"profile".toList, rfl, rfl⟩
  | timeout => exact ⟨"timeout".toList, rfl, rfl⟩

theorem length_stem : l.stem.length = 3 := by cases l <;> rfl

theorem length_spelling : l.spelling.length = 9 := by cases l <;> rfl

theorem stem_prefix {n : Nat} (h1 : 3 ≤ n) (h2 : n ≤ 9) : l.stem <+: l.spelling.take n := by
  have hall : ∀ n ≤ 9, 3 ≤ n → l.stem <+: l.spelling.take n := by cases l <;> decide
  exact hall n h2 h1

/-- The option is the only one that begins with a beginning of its spelling, if that is long
enough. -/
theorem table_filter {n : Nat} (h1 : 3 ≤ n) (h2 : n ≤ 9) :
    Opt.table.filter (fun e => (l.spelling.take n).isPrefixOf e.1.toList) =
      [(String.ofList l.spelling, l.opt)] := by
  have hall : ∀ n ≤ 9, 3 ≤ n →
      Opt.table.filter (fun e => (l.spelling.take n).isPrefixOf e.1.toList) =
        [(String.ofList l.spelling, l.opt)] := by
    cases l <;> decide
  exact hall n h2 h1

theorem le_of_table_filter {n : Nat} (h2 : n ≤ 9)
    (h : (Opt.table.filter fun e => (l.spelling.take n).isPrefixOf e.1.toList).length = 1) :
    3 ≤ n := by
  have hall : ∀ n ≤ 9,
      (Opt.table.filter fun e => (l.spelling.take n).isPrefixOf e.1.toList).length = 1 → 3 ≤ n := by
    cases l <;> decide
  exact hall n h2 h

theorem isShortSpelling_take {n : Nat} (h1 : 3 ≤ n) (h2 : n ≤ 9) :
    isShortSpelling (String.ofList (l.spelling.take n)) = false ∧
      (l.spelling.take n).length ≠ 2 := by
  have hall : ∀ n ≤ 9, 3 ≤ n → isShortSpelling (String.ofList (l.spelling.take n)) = false ∧
      (l.spelling.take n).length ≠ 2 := by
    cases l <;> decide
  exact hall n h2 h1

theorem eq_of_mem_table {e : String × Opt} (h : e ∈ Opt.table) (he : e.2 = l.opt) :
    e.1.toList = l.spelling := by
  have hall : ∀ e ∈ Opt.table, e.2 = l.opt → e.1.toList = l.spelling := by cases l <;> decide
  exact hall e h he

theorem eq_of_spelled? {s : String} (h : Opt.spelled? s = some l.opt) : s.toList = l.spelling := by
  obtain ⟨e, hfind, he⟩ := Option.map_eq_some_iff.1 h
  have heq := List.find?_some hfind
  rw [← l.eq_of_mem_table (List.mem_of_find?_eq_some hfind) he, beq_iff_eq.1 heq]

theorem spelled?_take {n : Nat} (h1 : 3 ≤ n) (h2 : n ≤ 9) {o : Opt}
    (h : Opt.spelled? (String.ofList (l.spelling.take n)) = some o) : o = l.opt := by
  have hall : ∀ n ≤ 9, 3 ≤ n → ∀ o, Opt.spelled? (String.ofList (l.spelling.take n)) = some o →
      o = l.opt := by
    cases l <;> decide
  exact hall n h2 h1 o h

theorem cutAtEquals_spelling : cutAtEquals l.spelling = (l.spelling, none) := by
  cases l <;> decide

end LongOption

/-! ## Cutting a word -/

theorem cutAtEquals_cases (cs : List Char) :
    (cutAtEquals cs = (cs, none) ∧ '=' ∉ cs) ∨
      ∃ front back, cs = front ++ '=' :: back ∧ '=' ∉ front ∧ cutAtEquals cs = (front, some back) := by
  have happend := List.takeWhile_append_dropWhile (p := (· != '=')) (l := cs)
  have htake : '=' ∉ cs.takeWhile (· != '=') := by
    intro h
    exact absurd (List.all_eq_true.1 List.all_takeWhile _ h) (by simp)
  rw [cutAtEquals]
  cases hdrop : cs.dropWhile (· != '=') with
  | nil =>
    rw [hdrop, List.append_nil] at happend
    rw [happend] at htake
    exact .inl ⟨rfl, htake⟩
  | cons c rest =>
    have hhead := List.head?_dropWhile_not (· != '=') cs
    rw [hdrop] at hhead
    obtain rfl : c = '=' := by simpa using hhead
    rw [hdrop] at happend
    exact .inr ⟨_, rest, happend.symm, htake, rfl⟩

theorem spelled?_of_mem_equals {w : String} (h : '=' ∈ w.toList) : Opt.spelled? w = none := by
  have hall : ∀ e ∈ Opt.table, '=' ∉ e.1.toList := by decide
  rw [Opt.spelled?, Option.map_eq_none_iff, List.find?_eq_none]
  intro e he heq
  rw [beq_iff_eq] at heq
  exact hall e he (heq ▸ h)

/-! ## Sorting a word -/

namespace LongOption

section Front

variable {l : LongOption} {cs : List Char} {attached : Option (List Char)} {n : Nat} (h1 : 3 ≤ n)
  (h2 : n ≤ 9) (hcut : cutAtEquals cs = (l.spelling.take n, attached))

/-- What is the option begins with a beginning of its spelling that is long enough. -/
theorem given?_eq_some {w : String} {a : Option String} :
    l.given? w = some a ↔
      ∃ n attached, 3 ≤ n ∧ n ≤ 9 ∧ cutAtEquals w.toList = (l.spelling.take n, attached) ∧
        a = attached.map String.ofList := by
  rw [given?]
  rcases cutAtEquals w.toList with ⟨front, attached⟩
  dsimp only
  rw [Option.ite_none_right_eq_some, Bool.and_eq_true, List.isPrefixOf_iff_prefix,
    List.isPrefixOf_iff_prefix, Option.some.injEq]
  constructor
  · rintro ⟨⟨hstem, hfull⟩, rfl⟩
    refine ⟨front.length, attached, l.length_stem ▸ hstem.length_le,
      l.length_spelling ▸ hfull.length_le, ?_, rfl⟩
    rw [← List.prefix_iff_eq_take.1 hfull]
  · rintro ⟨n, attached', h1, h2, hcut, rfl⟩
    obtain ⟨rfl, rfl⟩ := Prod.mk.inj hcut
    exact ⟨⟨l.stem_prefix h1 h2, List.take_prefix _ _⟩, rfl⟩

include h1 hcut

theorem hyphens_of_front : ∃ rest, cs = '-' :: '-' :: rest := by
  obtain ⟨rest, hspelling, -⟩ := l.spelling_eq
  obtain ⟨m, rfl⟩ := Nat.exists_eq_add_of_le h1
  have hstart : l.spelling.take (3 + m) = '-' :: '-' :: rest.take (1 + m) := by
    rw [hspelling, show 3 + m = 1 + m + 1 + 1 by omega, List.take_succ_cons, List.take_succ_cons]
  rcases cutAtEquals_cases cs with ⟨hself, -⟩ | ⟨front, back, rfl, -, hself⟩
  · obtain ⟨hfront, -⟩ := Prod.mk.inj (hself.symm.trans hcut)
    exact ⟨_, hfront.trans hstart⟩
  · obtain ⟨hfront, -⟩ := Prod.mk.inj (hself.symm.trans hcut)
    exact ⟨_, by rw [hfront, hstart]; rfl⟩

include h2

/-- Of a word that is the option, only the option is a candidate. -/
theorem candidates_of_front :
    candidates cs =
      [(String.ofList l.spelling, ⟨l.opt, false, attached.map String.ofList⟩)] := by
  have hlong : longCandidates cs =
      [(String.ofList l.spelling, ⟨l.opt, false, attached.map String.ofList⟩)] := by
    have hshort := (l.isShortSpelling_take (by decide) (Nat.le_refl 9)).1
    rw [List.take_of_length_le (Nat.le_of_eq l.length_spelling)] at hshort
    rw [longCandidates, hcut]
    dsimp only
    rw [l.table_filter h1 h2, List.map_singleton, hshort]
  obtain ⟨rest, rfl⟩ := hyphens_of_front h1 hcut
  exact hlong

end Front

variable {l : LongOption}

/-- **A word that is the option** is sorted as the option. -/
theorem sortWord_of_given? {w : String} {a : Option String} (h : l.given? w = some a) :
    sortWord w = .ok (.named ⟨l.opt, false, a⟩) := by
  obtain ⟨n, attached, h1, h2, hcut, rfl⟩ := given?_eq_some.1 h
  have hshort := l.isShortSpelling_take h1 h2
  have hcandidates := candidates_of_front h1 h2 hcut
  obtain ⟨rest, hw⟩ := hyphens_of_front h1 hcut
  rw [sortWord]
  split
  · cases hs : Opt.spelled? w with
    | some o =>
      rcases cutAtEquals_cases w.toList with ⟨hself, -⟩ | ⟨front, back, hback, -, -⟩
      · obtain ⟨hfront, rfl⟩ := Prod.mk.inj (hself.symm.trans hcut)
        obtain rfl : w = String.ofList (l.spelling.take n) := by
          rw [← hfront, String.ofList_toList]
        rw [l.spelled?_take h1 h2 hs, hshort.1]
        rfl
      · have hequals : '=' ∈ w.toList := by
          rw [hback]
          exact List.mem_append_right _ List.mem_cons_self
        exact absurd (hs.symm.trans (spelled?_of_mem_equals hequals)) (by simp)
    | none =>
      dsimp only
      rw [hcut, hcandidates]
      dsimp only
      split
      · next attached' o b hs' =>
        rw [l.spelled?_take h1 h2 hs', beq_eq_false_iff_ne.2 hshort.2]
        rfl
      · rfl
  · next hne => exact absurd hw (hne _ _)

/-- If the option is the only candidate, the word begins as it does. -/
theorem front_of_candidates {c : Char} {cs front : List Char} {attached : Option (List Char)}
    {s : String} {n : Named} (h : candidates ('-' :: c :: cs) = [(s, n)])
    (hn : n.option = l.opt) (hcut : cutAtEquals ('-' :: c :: cs) = (front, attached)) :
    ∃ k, 3 ≤ k ∧ k ≤ 9 ∧ front = l.spelling.take k := by
  obtain ⟨rest, hspelling, hrest⟩ := l.spelling_eq
  by_cases hc : c = '-'
  · subst hc
    have hlong : longCandidates ('-' :: '-' :: cs) = [(s, n)] := h
    rw [longCandidates, hcut] at hlong
    obtain ⟨e, hfilter, he⟩ := List.map_eq_singleton_iff.1 hlong
    have hmem : e ∈ Opt.table.filter fun e => front.isPrefixOf e.1.toList := by
      rw [hfilter]
      exact List.mem_singleton_self e
    obtain ⟨htable, hstarts⟩ := List.mem_filter.1 hmem
    have hoption : e.2 = l.opt := by
      rw [← hn, ← (Prod.mk.inj he).2]
    rw [l.eq_of_mem_table htable hoption, List.isPrefixOf_iff_prefix] at hstarts
    have hfront := List.prefix_iff_eq_take.1 hstarts
    have hlen : front.length ≤ 9 := l.length_spelling ▸ hstarts.length_le
    refine ⟨front.length, l.le_of_table_filter hlen ?_, hlen, hfront⟩
    rw [← hfront, hfilter]
    rfl
  · have hshort : (s, n) ∈ shortCandidates ('-' :: c :: cs) := by
      rw [candidates] at h
      · rw [h]
        exact List.mem_singleton_self _
      · intro rest hrest
        exact hc (List.cons.inj (List.cons.inj hrest).2).1
    obtain ⟨e, htable, he⟩ := List.mem_filterMap.1 hshort
    split at he
    · next heq =>
      have hoption : e.2 = l.opt := by
        rw [← hn, ← (Prod.mk.inj (Option.some.inj he)).2]
      have hlen := congrArg List.length heq
      rw [l.eq_of_mem_table htable hoption, l.length_spelling, List.length_take] at hlen
      omega
    · obtain ⟨hstarts, he⟩ := Option.ite_none_right_eq_some.1 he
      have hoption : e.2 = l.opt := by
        rw [← hn, ← (Prod.mk.inj (Option.some.inj he)).2]
      rw [l.eq_of_mem_table htable hoption, hspelling, List.isPrefixOf_iff_prefix,
        List.cons_prefix_cons, List.cons_prefix_cons] at hstarts
      exact absurd hstarts.2.1 hc

/-- **No other word** is sorted as the option. -/
theorem exists_given? {w : String} {n : Named} (h : sortWord w = .ok (.named n))
    (hn : n.option = l.opt) : ∃ a, l.given? w = some a := by
  have hgives : ∀ {front : List Char} {attached : Option (List Char)} {k : Nat},
      cutAtEquals w.toList = (front, attached) → 3 ≤ k → k ≤ 9 → front = l.spelling.take k →
        ∃ a, l.given? w = some a := by
    intro front attached k hcut h1 h2 hfront
    exact ⟨_, given?_eq_some.2 ⟨k, attached, h1, h2, hfront ▸ hcut, rfl⟩⟩
  have hall : l.spelling = l.spelling.take 9 :=
    (List.take_of_length_le (Nat.le_of_eq l.length_spelling)).symm
  rw [sortWord] at h
  split at h
  · next c cs hw =>
    rcases hcut : cutAtEquals w.toList with ⟨front, attached⟩
    rw [hcut] at h
    cases hs : Opt.spelled? w with
    | some o =>
      rw [hs] at h
      obtain rfl := Mark.named.inj (Except.ok.inj h)
      obtain rfl : o = l.opt := hn
      have hself : cutAtEquals w.toList = (l.spelling, none) := by
        rw [l.eq_of_spelled? hs, cutAtEquals_spelling]
      exact hgives hself (by decide) (Nat.le_refl 9) hall
    | none =>
      rw [hs] at h
      dsimp only at h
      split at h
      · next o a hs' =>
        obtain rfl := Mark.named.inj (Except.ok.inj h)
        obtain rfl : o = l.opt := hn
        have hfull := l.eq_of_spelled? hs'
        rw [String.toList_ofList] at hfull
        exact hgives hcut (by decide) (Nat.le_refl 9) (hfull.trans hall)
      · split at h
        · split at h
          · exact absurd h (by simp)
          · exact absurd h (by simp)
        · next heq =>
          obtain rfl := Mark.named.inj (Except.ok.inj h)
          rw [hw] at heq hcut
          obtain ⟨k, h1, h2, hfront⟩ := front_of_candidates heq hn hcut
          exact hgives (hw ▸ hcut) h1 h2 hfront
        · exact absurd h (by simp)
  · exact absurd h (by simp)

/-- A word that is sorted as a word is not the option. -/
theorem given?_of_word {w : String} (h : sortWord w = .ok .word) : l.given? w = none := by
  cases hgives : l.given? w with
  | none => rfl
  | some a => exact absurd (h.symm.trans (sortWord_of_given? hgives)) (by simp)

end LongOption

namespace CommandLine

variable {l : LongOption}

/-! ## The effects of the other options -/

theorem extras_of_effect {o : Opt} {w : String} {p p' : Progress} (h : effect o w p = .ok p') :
    p'.extras = p.extras := by
  cases o with
  | timeout =>
    rw [effect] at h
    split at h
    · rw [← Except.ok.inj h]
      rfl
    · exact absurd h (by simp)
  | help => exact absurd h (by simp [effect])
  | version => exact absurd h (by simp [effect])
  | _ =>
    rw [← Except.ok.inj h]
    rfl

/-- The option puts in force what its word stands for. -/
theorem field_of_effect {w : String} {p p' : Progress} (h : effect l.opt w p = .ok p') :
    l.value w = .ok (l.field p'.options) := by
  cases l with
  | profile =>
    rw [← Except.ok.inj h]
    rfl
  | timeout =>
    rw [LongOption.opt, effect] at h
    split at h
    · next v hv =>
      rw [← Except.ok.inj h]
      exact hv
    · exact absurd h (by simp)

/-- Another option leaves it. -/
theorem field_of_effect_other {o : Opt} {w : String} {p p' : Progress} (ho : o ≠ l.opt)
    (h : effect o w p = .ok p') : l.field p'.options = l.field p.options := by
  cases o with
  | help => exact absurd h (by simp [effect])
  | version => exact absurd h (by simp [effect])
  | timeout =>
    cases l with
    | timeout => exact absurd rfl ho
    | profile =>
      rw [effect] at h
      split at h
      · rw [← Except.ok.inj h]
        rfl
      · exact absurd h (by simp)
  | profile =>
    cases l with
    | profile => exact absurd rfl ho
    | timeout =>
      rw [← Except.ok.inj h]
      rfl
  | _ =>
    rw [← Except.ok.inj h]
    cases l <;> rfl

theorem effects_cons_eq_ok {o : Opt} {w : String} {es : List (Opt × String)} {p p' : Progress}
    (h : effects ((o, w) :: es) p = .ok p') :
    ∃ q, effect o w p = .ok q ∧ effects es q = .ok p' := by
  rw [effects] at h
  exact bind_eq_ok_iff.1 h

theorem extras_of_effects {es : List (Opt × String)} {p p' : Progress}
    (h : effects es p = .ok p') : p'.extras = p.extras := by
  induction es generalizing p with
  | nil => rw [← Except.ok.inj h]
  | cons e es ih =>
    obtain ⟨q, hq, hrest⟩ := effects_cons_eq_ok h
    exact (ih hrest).trans (extras_of_effect hq)

theorem field_of_effects {es : List (Opt × String)} {p p' : Progress}
    (h : effects es p = .ok p') (hes : ∀ e ∈ es, e.1 ≠ l.opt) :
    l.field p'.options = l.field p.options := by
  induction es generalizing p with
  | nil => rw [← Except.ok.inj h]
  | cons e es ih =>
    obtain ⟨q, hq, hrest⟩ := effects_cons_eq_ok h
    exact (ih hrest fun e' he' => hes e' (List.mem_cons_of_mem _ he')).trans
      (field_of_effect_other (hes e List.mem_cons_self) hq)

/-- The option alone, with its word. -/
theorem value_of_effects {w : String} {p p' : Progress} (h : effects [(l.opt, w)] p = .ok p') :
    l.value w = .ok (l.field p'.options) := by
  obtain ⟨q, hq, hrest⟩ := effects_cons_eq_ok h
  obtain rfl := Except.ok.inj hrest
  exact field_of_effect hq

/-- Options written together are never the option, which has no letter. -/
theorem opt_ne_of_unfold {o : Opt} {isShort : Bool} {all cs : List Char}
    {es : List (Opt × String)} {pending : Option Opt} (ho : o ≠ l.opt)
    (h : unfold o isShort all cs = .ok (es, pending)) :
    (∀ e ∈ es, e.1 ≠ l.opt) ∧ pending ≠ some l.opt := by
  have hletter : ∀ c, Opt.spelled? (String.ofList ['-', c]) ≠ some l.opt := by
    intro c hc
    have hlen := congrArg List.length (l.eq_of_spelled? hc)
    rw [String.toList_ofList, l.length_spelling] at hlen
    exact absurd hlen (by simp)
  induction cs generalizing o isShort all es pending with
  | nil =>
    rw [unfold] at h
    split at h
    · obtain ⟨rfl, rfl⟩ := Prod.mk.inj (Except.ok.inj h)
      simpa using ho
    · exact absurd h (by simp)
  | cons c cs ih =>
    rw [unfold] at h
    split at h
    · obtain ⟨rfl, rfl⟩ := Prod.mk.inj (Except.ok.inj h)
      simpa using ho
    split at h
    · exact absurd h (by simp)
    split at h
    · exact absurd h (by simp)
    · next next hnext =>
      have hne : next ≠ l.opt := fun he => hletter c (he ▸ hnext)
      split at h
      · split at h
        · obtain ⟨rfl, rfl⟩ := Prod.mk.inj (Except.ok.inj h)
          simpa using ⟨ho, hne⟩
        · obtain ⟨rfl, rfl⟩ := Prod.mk.inj (Except.ok.inj h)
          simpa using ⟨ho, hne⟩
      · obtain ⟨r, hrest, h⟩ := bind_eq_ok_iff.1 h
        obtain ⟨rfl, rfl⟩ := Prod.mk.inj (Except.ok.inj h)
        obtain ⟨hes, hpending⟩ := ih hne hrest
        exact ⟨List.forall_mem_cons.2 ⟨ho, hes⟩, hpending⟩

theorem opt_ne_of_unfoldNamed {n : Named} {es : List (Opt × String)} {pending : Option Opt}
    (hn : n.option ≠ l.opt) (h : unfoldNamed n = .ok (es, pending)) :
    (∀ e ∈ es, e.1 ≠ l.opt) ∧ pending ≠ some l.opt := by
  rw [unfoldNamed] at h
  split at h
  · split at h
    · obtain ⟨rfl, rfl⟩ := Prod.mk.inj (Except.ok.inj h)
      simpa using hn
    · obtain ⟨rfl, rfl⟩ := Prod.mk.inj (Except.ok.inj h)
      simpa using hn
  · exact opt_ne_of_unfold hn h

theorem takesWord_opt (l : LongOption) : l.opt.takesWord = true := by cases l <;> rfl

/-- The option takes the word that is attached to it. -/
theorem unfoldNamed_attached (l : LongOption) (a : String) :
    unfoldNamed ⟨l.opt, false, some a⟩ = .ok ([(l.opt, a)], none) := by
  show unfold l.opt false a.toList a.toList = _
  rcases ha : a.toList with _ | ⟨c, cs⟩
  · rw [unfold, if_pos (takesWord_opt l), String.toList_eq_nil_iff.1 ha]
  · rw [unfold, if_pos (takesWord_opt l), ← ha, String.ofList_toList]

theorem unfoldNamed_pending (l : LongOption) :
    unfoldNamed ⟨l.opt, false, none⟩ = .ok ([], some l.opt) := by
  show (if l.opt.takesWord then _ else _) = _
  rw [if_pos (takesWord_opt l)]

/-! ## Reading the sorted words -/

theorem read_other {w : String} {m : Mark} (hm : ∀ n, m ≠ .named n) (ms : List (String × Mark))
    (p : Progress) : read ((w, m) :: ms) p = read ms { p with extras := p.extras ++ [w] } := by
  cases m with
  | named n => exact absurd rfl (hm n)
  | _ => rfl

/-- An option that waits for a word finds one behind it. -/
theorem read_of_pending {w : String} {n : Named} {ms : List (String × Mark)} {p p' : Progress}
    {es : List (Opt × String)} {o : Opt} (hunfold : unfoldNamed n = .ok (es, some o))
    (h : read ((w, .named n) :: ms) p = .ok p') : ∃ name ms', ms = (name, .word) :: ms' := by
  rw [read, hunfold] at h
  dsimp only at h
  split at h
  · next name ms' => exact ⟨name, ms', rfl⟩
  · exact absurd h (by simp)

/-- What finds no use is kept. -/
theorem extras_of_read {ms : List (String × Mark)} {p p' : Progress} (h : read ms p = .ok p') :
    ∃ more, p'.extras = p.extras ++ more := by
  induction ms, p using read.induct with
  | case1 p => exact ⟨[], by rw [← Except.ok.inj h, List.append_nil]⟩
  | case2 w n ms p f hunfold =>
    rw [read, hunfold] at h
    exact absurd h (by simp)
  | case3 w n ms p es hunfold ih =>
    rw [read, hunfold] at h
    obtain ⟨q, hq, hread⟩ := bind_eq_ok_iff.1 h
    rw [← extras_of_effects hq]
    exact ih q hread
  | case4 w n p es o hunfold name ms ih =>
    rw [read, hunfold] at h
    obtain ⟨q, hq, hread⟩ := bind_eq_ok_iff.1 h
    rw [← extras_of_effects hq]
    exact ih q hread
  | case5 w n ms p es o hunfold hnext =>
    obtain ⟨name, ms', hms⟩ := read_of_pending hunfold h
    exact absurd hms (hnext name ms')
  | case6 w m ms p hm ih =>
    rw [read_other hm] at h
    obtain ⟨more, hmore⟩ := ih h
    exact ⟨w :: more, by rw [hmore, List.append_assoc]; rfl⟩

/-- If every word finds its use, each is an option or stands behind one. -/
theorem named_of_read {w : String} {m : Mark} {ms : List (String × Mark)} {p p' : Progress}
    (h : read ((w, m) :: ms) p = .ok p') (hextras : p'.extras = []) : ∃ n, m = .named n := by
  by_cases hm : ∃ n, m = .named n
  · exact hm
  · rw [read_other fun n hn => hm ⟨n, hn⟩] at h
    obtain ⟨more, hmore⟩ := extras_of_read h
    rw [hextras] at hmore
    exact absurd hmore (by simp)

/-- A word that is no separator is sorted by itself, before those behind it. -/
theorem sortWords_cons_cases {w : String} {ws : List String} {ms : List (String × Mark)}
    (h : sortWords (w :: ws) = .ok ms) :
    (∃ ms', ms = (w, .separator) :: ms') ∨
      ∃ m ms', ms = (w, m) :: ms' ∧ sortWord w = .ok m ∧ sortWords ws = .ok ms' := by
  rw [sortWords] at h
  split at h
  · exact .inl ⟨_, (Except.ok.inj h).symm⟩
  · obtain ⟨m, hw, h⟩ := bind_eq_ok_iff.1 h
    obtain ⟨ms', hws, h⟩ := bind_eq_ok_iff.1 h
    exact .inr ⟨m, ms', (Except.ok.inj h).symm, hw, hws⟩

theorem sortWords_eq_nil {words : List String} (h : sortWords words = .ok []) : words = [] := by
  cases words with
  | nil => rfl
  | cons w ws =>
    rcases sortWords_cons_cases h with ⟨ms', hms⟩ | ⟨m, ms', hms, -, -⟩
    · exact nomatch hms
    · exact nomatch hms

theorem sortWords_eq_cons {w : String} {m : Mark} {words : List String} {ms : List (String × Mark)}
    (h : sortWords words = .ok ((w, m) :: ms)) (hm : m ≠ .separator) :
    ∃ ws, words = w :: ws ∧ sortWord w = .ok m ∧ sortWords ws = .ok ms := by
  cases words with
  | nil => exact absurd h (by simp [sortWords])
  | cons w' ws =>
    rcases sortWords_cons_cases h with ⟨ms', hms⟩ | ⟨m', ms', hms, hw, hws⟩
    · exact absurd (Prod.mk.inj (List.cons.inj hms).1).2 hm
    · obtain ⟨hhead, rfl⟩ := List.cons.inj hms
      obtain ⟨rfl, rfl⟩ := Prod.mk.inj hhead
      exact ⟨ws, rfl, hw, hws⟩

/-! ## The last word is in force -/

section Step

variable {w : String} {n : Named} {es : List (Opt × String)} {p q : Progress} {ws : List String}
  {after : Value} (hw : sortWord w = .ok (.named n))

theorem puts_cons {words : List String} {a : String} {before v : Value}
    (hwords : l.wordsGiven words = a :: l.wordsGiven ws) (hv : l.value a = .ok v)
    (h : l.Puts ws v after) : l.Puts words before after := by
  rw [LongOption.Puts] at h ⊢
  rw [hwords, List.getLast?_cons]
  cases hlast : (l.wordsGiven ws).getLast? with
  | none =>
    rw [hlast] at h
    obtain rfl : after = v := h
    exact hv
  | some b =>
    rw [hlast] at h
    exact h

theorem puts_of_eq {words : List String} {before v : Value}
    (hwords : l.wordsGiven words = l.wordsGiven ws) (hv : v = before) (h : l.Puts ws v after) :
    l.Puts words before after := by
  rw [LongOption.Puts] at h ⊢
  rwa [hwords, ← hv]

include hw

theorem opt_ne_of_sortWord (hgives : l.given? w = none) : n.option ≠ l.opt := by
  intro hn
  obtain ⟨a, ha⟩ := LongOption.exists_given? hw hn
  exact absurd (hgives.symm.trans ha) (by simp)

theorem named_of_given? {a : Option String} (hgives : l.given? w = some a) :
    n = ⟨l.opt, false, a⟩ :=
  Mark.named.inj (Except.ok.inj (hw.symm.trans (LongOption.sortWord_of_given? hgives)))

/-- **An option that stands alone** puts in force what is attached to it, if it is the option. -/
theorem puts_of_alone (hunfold : unfoldNamed n = .ok (es, none)) (hq : effects es p = .ok q)
    (h : l.Puts ws (l.field q.options) after) :
    l.Puts (w :: ws) (l.field p.options) after := by
  cases hgives : l.given? w with
  | none =>
    have hother := opt_ne_of_unfoldNamed (opt_ne_of_sortWord hw hgives) hunfold
    exact puts_of_eq (LongOption.wordsGiven_of_none ws hgives) (field_of_effects hq hother.1) h
  | some a =>
    obtain rfl := named_of_given? hw hgives
    cases a with
    | none => exact absurd (hunfold.symm.trans (unfoldNamed_pending l)) (by simp)
    | some a =>
      obtain ⟨rfl, -⟩ := Prod.mk.inj (Except.ok.inj
        (hunfold.symm.trans (unfoldNamed_attached l a)))
      exact puts_cons (LongOption.wordsGiven_attached ws hgives) (value_of_effects hq) h

/-- **An option that takes the word behind it** does so too, and that word is not the option. -/
theorem puts_of_pair {o : Opt} {next : String} (hnext : l.given? next = none)
    (hunfold : unfoldNamed n = .ok (es, some o)) (hq : effects (es ++ [(o, next)]) p = .ok q)
    (h : l.Puts ws (l.field q.options) after) :
    l.Puts (w :: next :: ws) (l.field p.options) after := by
  cases hgives : l.given? w with
  | none =>
    have hwords : l.wordsGiven (w :: next :: ws) = l.wordsGiven ws := by
      rw [LongOption.wordsGiven_of_none _ hgives, LongOption.wordsGiven_of_none ws hnext]
    obtain ⟨hes, ho⟩ := opt_ne_of_unfoldNamed (opt_ne_of_sortWord hw hgives) hunfold
    have hall : ∀ e ∈ es ++ [(o, next)], e.1 ≠ l.opt := by
      intro e he
      rcases List.mem_append.1 he with he | he
      · exact hes e he
      · rw [List.mem_singleton.1 he]
        exact fun ho' => ho (congrArg some ho')
    exact puts_of_eq hwords (field_of_effects hq hall) h
  | some a =>
    obtain rfl := named_of_given? hw hgives
    cases a with
    | none =>
      obtain ⟨rfl, ho⟩ := Prod.mk.inj (Except.ok.inj (hunfold.symm.trans (unfoldNamed_pending l)))
      obtain rfl := Option.some.inj ho
      exact puts_cons (LongOption.wordsGiven_behind ws next hgives) (value_of_effects hq) h
    | some a => exact absurd (hunfold.symm.trans (unfoldNamed_attached l a)) (by simp)

end Step

/-- **The last word given is in force.** -/
theorem puts_of_read {words : List String} {ms : List (String × Mark)} {p p' : Progress}
    (hsort : sortWords words = .ok ms) (h : read ms p = .ok p') (hextras : p'.extras = []) :
    l.Puts words (l.field p.options) (l.field p'.options) := by
  induction ms, p using read.induct generalizing words with
  | case1 p =>
    rw [sortWords_eq_nil hsort, ← Except.ok.inj h]
    rfl
  | case2 w n ms p f hunfold =>
    rw [read, hunfold] at h
    exact absurd h (by simp)
  | case3 w n ms p es hunfold ih =>
    obtain ⟨ws, rfl, hw, hws⟩ := sortWords_eq_cons hsort (by simp)
    rw [read, hunfold] at h
    obtain ⟨q, hq, hread⟩ := bind_eq_ok_iff.1 h
    exact puts_of_alone hw hunfold hq (ih q hws hread)
  | case4 w n p es o hunfold next ms ih =>
    obtain ⟨ws, rfl, hw, hws⟩ := sortWords_eq_cons hsort (by simp)
    obtain ⟨ws', rfl, hnext, hws'⟩ := sortWords_eq_cons hws (by simp)
    rw [read, hunfold] at h
    obtain ⟨q, hq, hread⟩ := bind_eq_ok_iff.1 h
    exact puts_of_pair hw (LongOption.given?_of_word hnext) hunfold hq (ih q hws' hread)
  | case5 w n ms p es o hunfold hnext =>
    obtain ⟨next, ms', hms⟩ := read_of_pending hunfold h
    exact absurd hms (hnext next ms')
  | case6 w m ms p hm _ =>
    obtain ⟨n, hn⟩ := named_of_read h hextras
    exact absurd hn (hm n)

/-! ## Reading a command line -/

/-- What keeps a step of the reading from going on is no acceptance. -/
def Declines {α : Type} (x : Except Reading α) : Prop := ∀ o, x ≠ .error (.accepted o)

theorem Declines.bind {α β : Type} {x : Except Reading α} {f : α → Except Reading β}
    (hx : Declines x) (hf : ∀ a, Declines (f a)) : Declines (x >>= f) := by
  intro o h
  cases x with
  | ok a => exact hf a o h
  | error r =>
    have hr : (Except.error r : Except Reading β) = .error (.accepted o) := h
    exact hx o (congrArg Except.error (Except.error.inj hr))

theorem declines_effects (es : List (Opt × String)) (p : Progress) : Declines (effects es p) := by
  have heffect : ∀ (o : Opt) (w : String) (p : Progress), Declines (effect o w p) := by
    intro o w p o' h
    cases o with
    | timeout =>
      rw [effect] at h
      split at h
      · exact absurd h (by simp)
      · exact absurd h (by simp)
    | _ => exact absurd h (by simp [effect])
  induction es generalizing p with
  | nil => exact fun o h => absurd h (by simp [effects])
  | cons e es ih => exact (heffect e.1 e.2 p).bind ih

theorem declines_read (ms : List (String × Mark)) (p : Progress) : Declines (read ms p) := by
  induction ms, p using read.induct with
  | case1 p => exact fun o h => absurd h (by simp [read])
  | case2 w n ms p f hunfold =>
    rw [read, hunfold]
    exact fun o h => absurd h (by simp)
  | case3 w n ms p es hunfold ih =>
    rw [read, hunfold]
    exact (declines_effects es p).bind ih
  | case4 w n p es o hunfold name ms ih =>
    rw [read, hunfold]
    exact (declines_effects _ p).bind ih
  | case5 w n ms p es o hunfold hnext =>
    rw [read, hunfold]
    dsimp only
    split
    · next name ms' => exact absurd rfl (hnext name ms')
    · exact fun o h => absurd h (by simp)
  | case6 w m ms p hm ih =>
    rw [read_other hm]
    exact ih

/-- Settling changes nothing but a time limit that is a text. -/
theorem settleTimeout_eq_ok {o o' : Options} (h : settleTimeout o = .ok o') :
    o' = { o with timeout := o'.timeout } ∧ ((∀ t, o.timeout ≠ .str t) → o' = o) := by
  rw [settleTimeout] at h
  split at h
  · next t ht =>
    refine ⟨?_, fun hno => absurd ht (hno t)⟩
    obtain ⟨v, -, rfl⟩ := map_eq_ok_iff.1 h
    rfl
  · rw [← Except.ok.inj h]
    exact ⟨rfl, fun _ => rfl⟩

theorem finish_eq_ok {p : Progress} {o : Options} (h : finish p = .ok o) :
    p.extras = [] ∧ settleTimeout p.options = .ok o := by
  rw [finish] at h
  split at h
  · exact absurd h (by simp)
  · next o' hsettle =>
    split at h
    · next hextras =>
      rw [← Except.ok.inj h]
      exact ⟨List.isEmpty_iff.1 hextras, hsettle⟩
    · exact absurd h (by simp)

theorem declines_finish (p : Progress) : Declines (finish p) := by
  intro o h
  rw [finish] at h
  split at h
  · exact absurd h (by simp)
  · split at h
    · exact absurd h (by simp)
    · exact absurd h (by simp)

/-- Options are accepted if the words are sorted, read and used up. -/
theorem progress_of_parse {s : Settings} {words : List String} {o : Options}
    (h : parse s words = .accepted o) :
    ∃ ms p, sortWords words = .ok ms ∧ read ms ⟨.ofSettings s, []⟩ = .ok p ∧ finish p = .ok o := by
  rw [parse] at h
  split at h
  · exact absurd h (by simp)
  · next ms hsort =>
    have hdeclines := (declines_read ms ⟨.ofSettings s, []⟩).bind declines_finish
    cases hread : read ms ⟨.ofSettings s, []⟩ with
    | error r =>
      rw [hread] at h hdeclines
      exact absurd (congrArg Except.error (show r = .accepted o from h)) (hdeclines o)
    | ok p =>
      rw [hread] at h hdeclines
      cases hfinish : finish p with
      | error r =>
        have hr : settle (finish p) = .accepted o := h
        rw [hfinish] at hr
        exact absurd (hfinish.trans (congrArg Except.error hr)) (declines_finish p o)
      | ok o' =>
        have ho : settle (finish p) = .accepted o := h
        rw [hfinish] at ho
        obtain rfl := Reading.accepted.inj ho
        exact ⟨ms, p, hsort, hread, hfinish⟩

theorem timeoutValue_ne_str {w : String} {v : Value} (h : timeoutValue w = .ok v) (t : String) :
    v ≠ .str t := by
  rw [timeoutValue, timeLimit] at h
  split at h
  · rw [← Except.ok.inj h]
    simp
  · split at h
    · rw [← Except.ok.inj h]
      simp
    · exact absurd h (by simp)

/-- **What is in force for the option** is what the last word given stands for, or else what the
settings say. -/
theorem puts_of_parse {s : Settings} {words : List String} {o : Options}
    (h : parse s words = .accepted o) (hs : ∀ t, l.field (.ofSettings s) ≠ .str t) :
    l.Puts words (l.field (.ofSettings s)) (l.field o) := by
  obtain ⟨ms, p, hsort, hread, hfinish⟩ := progress_of_parse h
  obtain ⟨hextras, hsettle⟩ := finish_eq_ok hfinish
  have hputs := puts_of_read (l := l) hsort hread hextras
  have hfield : l.field o = l.field p.options := by
    obtain ⟨hother, hsame⟩ := settleTimeout_eq_ok hsettle
    cases l with
    | profile =>
      rw [hother]
      rfl
    | timeout =>
      refine congrArg _ (hsame fun t ht => ?_)
      rw [LongOption.Puts] at hputs
      split at hputs
      · exact hs t (hputs.symm.trans ht)
      · exact timeoutValue_ne_str hputs t ht
  rw [hfield]
  exact hputs

end CommandLine

end LinkOverride
