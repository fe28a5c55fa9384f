import LinkOverride.Step
import LinkOverride.Text.Template
import Mathlib.Data.List.TakeWhile

/-!
# What a template says

A template is read from left to right, and what a placeholder is shows only as it is read. Here it is
said without a reader: how a placeholder is spelled, which letters suit which item, and what text a
template then stands for. Main statement: filling gives a text just if the template stands for it.

A size is spelled with digits: a star, which takes it from the items, leaves no item to be written. A
template without a percent sign stands for itself.
-/

namespace LinkOverride.Text.Template

variable {α β : Type} {cs ds front rest out : List Char} {f : Form} {i : Item}
  {items : Keyed Item} {supply : Supply} {index length fuel : Nat}

/-- Of given characters this can be computed. -/
theorem forall_of_all {P : Char → Prop} [DecidablePred P]
    (h : cs.all (fun c => decide (P c)) = true) : ∀ c ∈ cs, P c :=
  fun c hc => of_decide_eq_true (List.all_eq_true.1 h c hc)

/-- A run of characters of a kind, with another behind it. -/
theorem takeWhile_run {p : Char → Bool} (h : ∀ c ∈ front, p c = true)
    (hrest : ∀ c ∈ rest.head?, p c = false) :
    (front ++ rest).takeWhile p = front ∧ (front ++ rest).dropWhile p = rest := by
  rw [List.takeWhile_append_of_pos h, List.dropWhile_append_of_pos h]
  cases rest with
  | nil => exact ⟨List.append_nil _, rfl⟩
  | cons c cs =>
    have hc := hrest c rfl
    rw [List.takeWhile_cons_of_neg (by simp [hc]), List.dropWhile_cons_of_neg (by simp [hc])]
    exact ⟨List.append_nil _, rfl⟩

/-! ## Names -/

/-- One more character of a name. -/
theorem append_of_map {c : Char} {name : List Char} {x : Option (List Char × List Char)}
    (h : (x.map fun (n, rest) => (c :: n, rest)) = some (name, rest))
    (ih : ∀ {n}, x = some (n, rest) → cs = n ++ ')' :: rest) : c :: cs = name ++ ')' :: rest := by
  obtain ⟨⟨n, back⟩, hn, heq⟩ := Option.map_eq_some_iff.1 h
  obtain ⟨rfl, rfl⟩ := heq
  rw [ih hn, List.cons_append]

/-- A name and the parenthesis that closes it stand in front of what is left. -/
theorem closing?_append {depth : Nat} {name : List Char} (h : closing? depth cs = some (name, rest)) :
    cs = name ++ ')' :: rest := by
  induction depth, cs using closing?.induct generalizing name with
  | case1 => exact absurd h (by simp [closing?])
  | case2 depth cs hdepth =>
    rw [closing?, if_pos hdepth] at h
    obtain ⟨rfl, rfl⟩ := h
    rfl
  | case3 depth cs hdepth ih =>
    rw [closing?, if_neg hdepth] at h
    exact append_of_map h ih
  | case4 depth cs ih =>
    rw [closing?] at h
    exact append_of_map h ih
  | case5 depth c cs hclose hopen ih =>
    rw [closing?.eq_4 depth c cs hclose hopen] at h
    exact append_of_map h ih

/-- No name has a parenthesis in it. -/
def Unbracketed (items : Keyed Item) : Prop :=
  ∀ n ∈ Keyed.keys items, ∀ c ∈ n.toList, c ≠ '(' ∧ c ≠ ')'

/-- A name without a parenthesis ends at the next one. -/
theorem closing?_of_unbracketed {name : List Char} (h : ∀ c ∈ name, c ≠ '(' ∧ c ≠ ')') :
    closing? 1 (name ++ ')' :: rest) = some (name, rest) := by
  induction name with
  | nil => rfl
  | cons c cs ih =>
    obtain ⟨⟨hopen, hclose⟩, hcs⟩ := List.forall_mem_cons.1 h
    rw [List.cons_append, closing?.eq_4 1 c _ hclose hopen, ih hcs]
    rfl

/-! ## Spelling -/

/-- The letters that ask for a form. -/
def letters : List Char := "sradiuoxXeEfFgGc".toList

/-- A placeholder behind its name, as it is spelled. -/
structure Placeholder where
  flags : List Char
  width : List Char
  precision : Option (List Char)
  length : Option Char
  letter : Char

namespace Placeholder

/-- What stands behind the width. -/
def ending (p : Placeholder) : List Char :=
  (match p.precision with
    | some ds => '.' :: ds
    | none => []) ++ (p.length.toList ++ [p.letter])

def written (p : Placeholder) : List Char := p.flags ++ (p.width ++ p.ending)

/-- A zero at the start is a flag. -/
structure Wellformed (p : Placeholder) : Prop where
  flags : ∀ c ∈ p.flags, isFlag c = true
  width : ∀ c ∈ p.width, c.isDigit = true
  start : p.width.head? ≠ some '0'
  widthFits : number p.width ≤ mostWidth
  precision : ∀ ds ∈ p.precision, (∀ c ∈ ds, c.isDigit = true) ∧ number ds ≤ mostPrecision
  length : ∀ c ∈ p.length, c = 'h' ∨ c = 'l' ∨ c = 'L'

def form (p : Placeholder) : Form :=
  ⟨p.flags.contains '-', p.flags.contains '+', p.flags.contains ' ', p.flags.contains '#',
    p.flags.contains '0', number p.width, p.precision.map number, p.letter⟩

end Placeholder

/-- The text of an item in a form that suits it. -/
inductive Writes (f : Form) : Item → List Char → Prop
  | text (i : Item) (hletter : f.letter ∈ "sra".toList) : Writes f i (textForm f i)
  | zero (hletter : f.letter ∈ "diuoxXeEfFgG".toList)
      (hroom : f.letter ∈ "diuoxX".toList → f.precision.getD 0 + 3 ≤ mostPrecision) :
      Writes f .no (zeroForm f)
  | null (hletter : f.letter = 'c') : Writes f .no (pad f ' ' ['\x00'])
  | char {s : String} {c : Char} (hletter : f.letter = 'c') (hs : s.toList = [c]) :
      Writes f (.text s) (pad f ' ' [c])

/-- The text that a template stands for. -/
inductive Expands (items : Keyed Item) : Supply → List Char → List Char → Prop
  | nil (supply : Supply) : Expands items supply [] []
  | plain {supply : Supply} {c : Char} {cs out : List Char} (hc : c ≠ '%')
      (hrest : Expands items supply cs out) : Expands items supply (c :: cs) (c :: out)
  | percent {supply : Supply} {cs out : List Char} (hrest : Expands items supply cs out) :
      Expands items supply ('%' :: '%' :: cs) ('%' :: out)
  /-- Without a name it takes what is left, so only the first placeholder can go without one. -/
  | unnamed {i : Item} {p : Placeholder} {front cs out : List Char} (hp : p.Wellformed)
      (hfront : Writes p.form i front) (hrest : Expands items .used cs out) :
      Expands items (.fresh i) ('%' :: (p.written ++ cs)) (front ++ out)
  /-- A name in parentheses is that of an item, and after it none is left. -/
  | named {supply : Supply} {n : String} {i : Item} {p : Placeholder} {front cs out : List Char}
      (hi : items.find? n = some i) (hp : p.Wellformed) (hfront : Writes p.form i front)
      (hrest : Expands items .used cs out) :
      Expands items supply ('%' :: '(' :: (n.toList ++ ')' :: (p.written ++ cs))) (front ++ out)

/-- **Without a percent sign** a template stands for itself. -/
theorem Expands.self (supply : Supply) (h : '%' ∉ cs) : Expands items supply cs cs := by
  induction cs with
  | nil => exact .nil supply
  | cons c cs ih =>
    exact .plain (fun hc => h (hc ▸ List.mem_cons_self)) (ih (List.not_mem_of_not_mem_cons h))

/-! ## Writing -/

theorem write_eq_ok_iff : write index f i = .ok front ↔ Writes f i front := by
  constructor
  · intro h
    rw [write] at h
    split at h
    · next hletter =>
      rw [← Except.ok.inj h]
      exact .text i (List.contains_iff_mem.1 hletter)
    split at h
    · next hletter =>
      cases i with
      | no =>
        rw [numberForm] at h
        split at h
        · exact absurd h (by simp)
        · next hroom =>
          rw [← Except.ok.inj h]
          refine .zero (List.contains_iff_mem.1 hletter) fun hwhole => ?_
          rw [List.contains_iff_mem.2 hwhole, Bool.true_and, decide_eq_true_iff] at hroom
          exact Nat.le_of_not_lt hroom
      | text s => exact absurd h (by simp [numberForm])
      | other t => exact absurd h (by simp [numberForm])
    split at h
    · next hletter =>
      cases i with
      | no =>
        rw [← Except.ok.inj h]
        exact .null hletter
      | text s =>
        rw [charForm] at h
        split at h
        · next hone =>
          rw [← String.length_toList] at hone
          obtain ⟨c, hs⟩ := List.length_eq_one_iff.1 hone
          rw [← Except.ok.inj h, hs]
          exact .char hletter hs
        · exact absurd h (by simp)
      | other t => exact absurd h (by simp [charForm])
    · exact absurd h (by simp)
  · intro h
    cases h with
    | text i hletter => rw [write, if_pos (List.contains_iff_mem.2 hletter)]
    | zero hletter hroom =>
      have htext : ¬("sra".toList.contains f.letter = true) := by
        have hall : ∀ c ∈ "diuoxXeEfFgG".toList, ¬("sra".toList.contains c = true) :=
          forall_of_all (by decide)
        exact hall _ hletter
      rw [write, if_neg htext, if_pos (List.contains_iff_mem.2 hletter), numberForm, if_neg]
      rw [Bool.and_eq_true_iff, decide_eq_true_iff, List.contains_iff_mem]
      exact fun h => Nat.not_lt.2 (hroom h.1) h.2
    | null hletter =>
      rw [write, hletter]
      rfl
    | char hletter hs =>
      rw [write, hletter]
      simp [charForm, ← String.length_toList, hs]

theorem Writes.letter_mem (h : Writes f i front) : f.letter ∈ letters := by
  have hsub : ∀ xs ∈ ["sra".toList, "diuoxXeEfFgG".toList, ['c']], xs ⊆ letters := by decide
  cases h with
  | text i hletter => exact hsub _ (by simp) hletter
  | zero hletter hroom => exact hsub _ (by simp) hletter
  | null hletter => exact hsub ['c'] (by simp) (by simp [hletter])
  | char hletter hs => exact hsub ['c'] (by simp) (by simp [hletter])

/-! ## Reading a placeholder -/

section size

variable {most n : Nat} {excess : ValueFault}

/-- Where an item is left to be written, a size is written out. -/
theorem size_eq_ok (h : size most excess supply cs = .ok (n, .fresh i, rest)) :
    supply = .fresh i ∧ cs = cs.takeWhile Char.isDigit ++ rest ∧
      n = number (cs.takeWhile Char.isDigit) ∧ number (cs.takeWhile Char.isDigit) ≤ most := by
  rw [size.eq_def] at h
  split at h
  · split at h
    · exact absurd h (by simp)
    · exact absurd h (by simp)
  · dsimp only at h
    split at h
    · exact absurd h (by simp)
    · next hmost =>
      have heq := Except.ok.inj h
      rw [Prod.mk.injEq, Prod.mk.injEq] at heq
      obtain ⟨hn, hsupply, hrest⟩ := heq
      rw [← hrest, List.takeWhile_append_dropWhile]
      exact ⟨hsupply, rfl, hn.symm, Nat.le_of_not_lt hmost⟩

theorem size_of_digits (hds : ∀ c ∈ ds, c.isDigit = true) (hmost : number ds ≤ most)
    (hrest : ∀ c ∈ rest.head?, c.isDigit = false ∧ c ≠ '*') :
    size most excess supply (ds ++ rest) = .ok (number ds, supply, rest) := by
  obtain ⟨htake, hdrop⟩ := takeWhile_run hds fun c hc => (hrest c hc).1
  have hstar : ∀ cs, ds ++ rest = '*' :: cs → False := by
    intro cs hstar
    cases ds with
    | nil =>
      rw [List.nil_append] at hstar
      exact (hrest '*' (by rw [hstar]; rfl)).2 rfl
    | cons d ds =>
      obtain ⟨rfl, -⟩ := List.cons.inj hstar
      exact absurd (hds '*' List.mem_cons_self) (by decide)
  rw [size.eq_def]
  split
  · next heq => exact absurd heq (hstar _)
  · dsimp only
    rw [htake, hdrop, if_neg (Nat.not_lt.2 hmost)]

end size

/-- A length in front of the letter means nothing. -/
theorem length_of_skipLength (h : skipLength cs = rest) :
    ∃ length : Option Char, (∀ c ∈ length, c = 'h' ∨ c = 'l' ∨ c = 'L') ∧
      cs = length.toList ++ rest := by
  cases cs with
  | nil => exact ⟨none, by simp, h⟩
  | cons c cs =>
    rw [skipLength] at h
    split at h
    · next hc => exact ⟨some c, fun d hd => Option.some.inj hd ▸ hc, by rw [h]; rfl⟩
    · exact ⟨none, by simp, h⟩

/-- Behind the sizes stands the letter. -/
theorem letter_of_ok {g : Char → Form} {e : Failure} {supply' : Supply}
    (h : (match skipLength cs with
      | [] => (Except.error e : Except Failure (Form × Supply × List Char))
      | letter :: rest => pure (g letter, supply, rest)) = .ok (f, supply', rest)) :
    ∃ (length : Option Char) (letter : Char), (∀ c ∈ length, c = 'h' ∨ c = 'l' ∨ c = 'L') ∧
      cs = length.toList ++ letter :: rest ∧ f = g letter ∧ supply' = supply := by
  split at h
  · exact absurd h (by simp)
  · next letter left hskip =>
    have heq := Except.ok.inj h
    rw [Prod.mk.injEq, Prod.mk.injEq] at heq
    obtain ⟨hf, hsupply, rfl⟩ := heq
    obtain ⟨length, hlength, hcs⟩ := length_of_skipLength hskip
    exact ⟨length, letter, hlength, hcs, hf.symm, hsupply.symm⟩

/-- The flags are read first, so a width does not start with a zero. -/
theorem head?_width (cs : List Char) :
    ((cs.dropWhile isFlag).takeWhile Char.isDigit).head? ≠ some '0' := by
  intro hzero
  rw [List.head?_takeWhile, Option.filter_eq_some_iff] at hzero
  have hflag := List.head?_dropWhile_not isFlag cs
  rw [hzero.1] at hflag
  exact absurd hflag (by decide)

namespace Placeholder

variable {p : Placeholder}

/-- **A placeholder that is read** is spelled in front of what is left. -/
theorem exists_of_form (h : Template.form supply cs = .ok (f, .fresh i, rest)) :
    ∃ p : Placeholder, p.Wellformed ∧ supply = .fresh i ∧ cs = p.written ++ rest ∧ f = p.form := by
  have hflags : ∀ c ∈ cs.takeWhile isFlag, isFlag c = true := fun c hc => List.mem_takeWhile_imp hc
  have hdigits : ∀ xs : List Char, ∀ c ∈ xs.takeWhile Char.isDigit, c.isDigit = true :=
    fun xs c hc => List.mem_takeWhile_imp hc
  obtain ⟨⟨width, afterWidth, back⟩, hwidth, h⟩ := bind_eq_ok_iff.1 h
  dsimp only at h
  split at h
  · next back =>
    obtain ⟨⟨places, afterPlaces, tail⟩, hplaces, h⟩ := bind_eq_ok_iff.1 h
    obtain ⟨length, letter, hlength, htail, rfl, hsupply⟩ := letter_of_ok h
    dsimp only at htail hsupply
    subst htail hsupply
    obtain ⟨rfl, hback, rfl, hmostPlaces⟩ := size_eq_ok hplaces
    obtain ⟨rfl, hcs, rfl, hmostWidth⟩ := size_eq_ok hwidth
    refine ⟨⟨cs.takeWhile isFlag, (cs.dropWhile isFlag).takeWhile Char.isDigit,
      some (back.takeWhile Char.isDigit), length, letter⟩, ?_, rfl, ?_, rfl⟩
    · exact ⟨hflags, hdigits _, head?_width cs, hmostWidth,
        fun ds hds => Option.some.inj hds ▸ ⟨hdigits _, hmostPlaces⟩, hlength⟩
    · calc cs
          = cs.takeWhile isFlag ++ cs.dropWhile isFlag := List.takeWhile_append_dropWhile.symm
        _ = cs.takeWhile isFlag ++ ((cs.dropWhile isFlag).takeWhile Char.isDigit ++
              '.' :: (back.takeWhile Char.isDigit ++ (length.toList ++ letter :: rest))) := by
            rw [← hback, ← hcs]
        _ = _ := by simp [written, ending]
  · next back hpoint =>
    obtain ⟨length, letter, hlength, hback, rfl, hsupply⟩ := letter_of_ok h
    dsimp only at hback hsupply
    subst hback hsupply
    obtain ⟨rfl, hcs, rfl, hmostWidth⟩ := size_eq_ok hwidth
    refine ⟨⟨cs.takeWhile isFlag, (cs.dropWhile isFlag).takeWhile Char.isDigit, none, length,
      letter⟩, ?_, rfl, ?_, rfl⟩
    · exact ⟨hflags, hdigits _, head?_width cs, hmostWidth, by simp, hlength⟩
    · calc cs
          = cs.takeWhile isFlag ++ cs.dropWhile isFlag := List.takeWhile_append_dropWhile.symm
        _ = cs.takeWhile isFlag ++ ((cs.dropWhile isFlag).takeWhile Char.isDigit ++
              (length.toList ++ letter :: rest)) := by rw [← hcs]
        _ = _ := by simp [written, ending]

/-- What may stand behind the width ends the flags and the digits. -/
theorem not_flag_or_digit {c : Char} (h : c ∈ ".hlL".toList ++ letters) :
    isFlag c = false ∧ c.isDigit = false ∧ c ≠ '*' ∧ c ≠ '%' ∧ c ≠ '(' := by
  have hall : ∀ c ∈ ".hlL".toList ++ letters,
      isFlag c = false ∧ c.isDigit = false ∧ c ≠ '*' ∧ c ≠ '%' ∧ c ≠ '(' :=
    forall_of_all (by decide)
  exact hall c h

theorem mem_of_head?_lettered (hp : p.Wellformed) (hletter : p.letter ∈ letters)
    (rest : List Char) : ∀ c ∈ (p.length.toList ++ p.letter :: rest).head?,
      c ∈ "hlL".toList ++ letters := by
  intro c hc
  cases hlength : p.length with
  | none =>
    rw [hlength] at hc
    rw [← Option.some.inj hc]
    exact List.mem_append_right _ hletter
  | some d =>
    rw [hlength] at hc
    rw [← Option.some.inj hc]
    rcases hp.length d hlength with rfl | rfl | rfl <;> decide

theorem mem_of_head?_ending (hp : p.Wellformed) (hletter : p.letter ∈ letters)
    (rest : List Char) : ∀ c ∈ (p.ending ++ rest).head?, c ∈ ".hlL".toList ++ letters := by
  intro c hc
  rw [ending] at hc
  cases hprecision : p.precision with
  | none =>
    rw [hprecision, List.nil_append, List.append_assoc, List.singleton_append] at hc
    exact List.mem_cons_of_mem _ (mem_of_head?_lettered hp hletter rest c hc)
  | some ds =>
    rw [hprecision] at hc
    rw [← Option.some.inj hc]
    exact List.mem_cons_self

theorem not_flag_of_head?_width (hp : p.Wellformed) (hletter : p.letter ∈ letters)
    (rest : List Char) : ∀ c ∈ (p.width ++ (p.ending ++ rest)).head?, isFlag c = false := by
  intro c hc
  cases hwidth : p.width with
  | nil =>
    rw [hwidth, List.nil_append] at hc
    exact (not_flag_or_digit (mem_of_head?_ending hp hletter rest c hc)).1
  | cons d ds =>
    have hflags : ∀ c ∈ "-+ #0".toList, c.isDigit = true → c = '0' :=
      forall_of_all (by decide)
    rw [hwidth] at hc
    obtain rfl := Option.some.inj hc
    rw [Bool.eq_false_iff]
    intro hflag
    have hzero := hflags d (List.contains_iff_mem.1 hflag)
      (hp.width d (hwidth ▸ List.mem_cons_self))
    exact hp.start (by rw [hwidth, hzero]; rfl)

theorem skipLength_lettered (hp : p.Wellformed) (hletter : p.letter ∈ letters) :
    skipLength (p.length.toList ++ p.letter :: rest) = p.letter :: rest := by
  cases hlength : p.length with
  | none =>
    have hall : ∀ c ∈ letters, ¬(c = 'h' ∨ c = 'l' ∨ c = 'L') := forall_of_all (by decide)
    exact if_neg (hall p.letter hletter)
  | some d => exact if_pos (hp.length d hlength)

/-- **A placeholder that is spelled** is read. -/
theorem form_written (hp : p.Wellformed) (hletter : p.letter ∈ letters) (supply : Supply)
    (rest : List Char) : Template.form supply (p.written ++ rest) = .ok (p.form, supply, rest) := by
  obtain ⟨htake, hdrop⟩ := takeWhile_run hp.flags (not_flag_of_head?_width hp hletter rest)
  have hending : ∀ c ∈ (p.ending ++ rest).head?, c.isDigit = false ∧ c ≠ '*' := by
    intro c hc
    have hnext := not_flag_or_digit (mem_of_head?_ending hp hletter rest c hc)
    exact ⟨hnext.2.1, hnext.2.2.1⟩
  have hwidth : size mostWidth .widthTooBig supply (p.width ++ (p.ending ++ rest)) = .ok _ :=
    size_of_digits hp.width hp.widthFits hending
  have hletters : ∀ c ∈ (p.length.toList ++ p.letter :: rest).head?,
      c ≠ '.' ∧ c.isDigit = false ∧ c ≠ '*' := by
    have hpoint : ∀ c ∈ "hlL".toList ++ letters, c ≠ '.' := forall_of_all (by decide)
    intro c hc
    have hmem := mem_of_head?_lettered hp hletter rest c hc
    have hnext := not_flag_or_digit (List.mem_cons_of_mem '.' hmem)
    exact ⟨hpoint c hmem, hnext.2.1, hnext.2.2.1⟩
  rw [written, List.append_assoc, List.append_assoc, Template.form]
  rw [htake, hdrop, hwidth, form, ending]
  cases hprecision : p.precision with
  | none =>
    rw [List.nil_append, List.append_assoc, List.singleton_append]
    dsimp only [bind, Except.bind]
    split
    · next heq => exact absurd rfl (hletters '.' (by rw [heq]; rfl)).1
    · dsimp only [pure, Except.pure]
      rw [skipLength_lettered hp hletter]
      rfl
  | some ds =>
    obtain ⟨hds, hmost⟩ := hp.precision ds hprecision
    have hplaces : size mostPrecision .precisionTooBig supply
        (ds ++ (p.length.toList ++ p.letter :: rest)) = .ok _ :=
      size_of_digits hds hmost fun c hc => (hletters c hc).2
    rw [List.cons_append, List.cons_append, List.append_assoc, List.append_assoc,
      List.singleton_append]
    show (size mostPrecision .precisionTooBig supply (ds ++ (p.length.toList ++ p.letter :: rest))
      >>= _) = _
    rw [hplaces]
    dsimp only [bind, Except.bind, pure, Except.pure]
    rw [skipLength_lettered hp hletter]
    rfl

/-- A placeholder is neither a second percent sign nor a name. -/
theorem head?_written (hp : p.Wellformed) (hletter : p.letter ∈ letters) (rest : List Char) :
    ∀ c ∈ (p.written ++ rest).head?, c ≠ '%' ∧ c ≠ '(' := by
  intro c hc
  rw [written, List.append_assoc, List.append_assoc] at hc
  cases hflags : p.flags with
  | cons d ds =>
    have hall : ∀ c ∈ "-+ #0".toList, c ≠ '%' ∧ c ≠ '(' := forall_of_all (by decide)
    rw [hflags] at hc
    rw [← Option.some.inj hc]
    exact hall d (List.contains_iff_mem.1 (hp.flags d (hflags ▸ List.mem_cons_self)))
  | nil =>
    rw [hflags, List.nil_append] at hc
    cases hwidth : p.width with
    | cons d ds =>
      rw [hwidth] at hc
      rw [← Option.some.inj hc]
      have hd := hp.width d (hwidth ▸ List.mem_cons_self)
      constructor <;> (rintro rfl; exact absurd hd (by decide))
    | nil =>
      rw [hwidth, List.nil_append] at hc
      exact (not_flag_or_digit (mem_of_head?_ending hp hletter rest c hc)).2.2.2

theorem length_written_pos (p : Placeholder) : 0 < p.written.length := by
  simp only [written, ending, List.length_append, List.length_singleton]
  omega

end Placeholder

/-! ## Filling a template -/

theorem name?_eq_ok {name : Option String} (h : name? cs = .ok (name, rest)) :
    (name = none ∧ cs = rest) ∨ ∃ n, name = some n ∧ cs = '(' :: (n.toList ++ ')' :: rest) := by
  rw [name?.eq_def] at h
  split at h
  · split at h
    · next n back hclosing =>
      obtain ⟨rfl, rfl⟩ := Prod.mk.inj (Except.ok.inj h)
      exact .inr ⟨String.ofList n, rfl, by rw [String.toList_ofList, closing?_append hclosing]⟩
    · exact absurd h (by simp)
  · obtain ⟨rfl, rfl⟩ := Prod.mk.inj (Except.ok.inj h)
    exact .inl ⟨rfl, rfl⟩

theorem lookUp_eq_ok {n : String} {supply' : Supply} (h : lookUp items (some n) supply = .ok supply') :
    ∃ i, items.find? n = some i ∧ supply' = .fresh i := by
  rw [lookUp] at h
  cases hfind : items.find? n with
  | none =>
    rw [hfind] at h
    exact absurd h (by simp)
  | some i =>
    rw [hfind] at h
    exact ⟨i, rfl, (Except.ok.inj h).symm⟩

/-- By induction on the reading: a text that is filled in is one that the template stands for. -/
theorem expands_of_fillFrom (hfuel : cs.length ≤ fuel)
    (h : fillFrom items length fuel supply cs = .ok out) : Expands items supply cs out := by
  induction fuel, supply, cs using fillFrom.induct generalizing out with
  | case1 supply cs =>
    obtain rfl := List.length_eq_zero_iff.1 (Nat.le_zero.1 hfuel)
    obtain rfl := Except.ok.inj h
    exact .nil supply
  | case2 fuel supply hne =>
    rw [fillFrom.eq_2 _ _ _ _ hne] at h
    obtain rfl := Except.ok.inj h
    exact .nil supply
  | case3 fuel supply cs ih =>
    rw [fillFrom.eq_3] at h
    obtain ⟨out, hout, h⟩ := bind_eq_ok_iff.1 h
    obtain rfl := Except.ok.inj h
    refine .percent (ih ?_ hout)
    rw [List.length_cons, List.length_cons] at hfuel
    omega
  | case4 fuel supply cs hpercent ih =>
    rw [fillFrom.eq_4 _ _ _ _ _ hpercent] at h
    obtain ⟨⟨name, back⟩, hname, h⟩ := bind_eq_ok_iff.1 h
    obtain ⟨supply', hlook, h⟩ := bind_eq_ok_iff.1 h
    obtain ⟨⟨f, supply'', rest⟩, hform, h⟩ := bind_eq_ok_iff.1 h
    cases supply'' with
    | used => exact absurd h (by simp)
    | fresh i =>
      obtain ⟨front, hfront, h⟩ := bind_eq_ok_iff.1 h
      obtain ⟨out, hout, h⟩ := bind_eq_ok_iff.1 h
      obtain rfl := Except.ok.inj h
      obtain ⟨p, hp, rfl, rfl, rfl⟩ := Placeholder.exists_of_form hform
      have hwrites := write_eq_ok_iff.1 hfront
      have hpos := p.length_written_pos
      rcases name?_eq_ok hname with ⟨rfl, rfl⟩ | ⟨n, rfl, rfl⟩
      · obtain rfl := Except.ok.inj hlook
        refine .unnamed hp hwrites (ih rest ?_ hout)
        rw [List.length_cons, List.length_append] at hfuel
        omega
      · obtain ⟨j, hj, hsupply⟩ := lookUp_eq_ok hlook
        obtain rfl := Supply.fresh.inj hsupply
        refine .named hj hp hwrites (ih rest ?_ hout)
        simp only [List.length_cons, List.length_append] at hfuel
        omega
  | case5 fuel supply c cs hpercent hc ih =>
    rw [fillFrom.eq_5 _ _ _ _ _ _ hpercent hc] at h
    obtain ⟨out, hout, h⟩ := bind_eq_ok_iff.1 h
    obtain rfl := Except.ok.inj h
    exact .plain hc (ih (Nat.le_of_succ_le_succ hfuel) hout)

theorem name?_none (h : ∀ c ∈ cs.head?, c ≠ '(') : name? cs = .ok (none, cs) := by
  cases cs with
  | nil => rfl
  | cons c cs => exact name?.eq_2 (c :: cs) fun rest heq => h c rfl (List.cons.inj heq).1

theorem name?_some {n : String} (h : ∀ c ∈ n.toList, c ≠ '(' ∧ c ≠ ')') :
    name? ('(' :: (n.toList ++ ')' :: rest)) = .ok (some n, rest) := by
  rw [name?, closing?_of_unbracketed h]
  dsimp only
  rw [String.ofList_toList]

/-- A placeholder is read, its item is written, and none is left for the next one. -/
theorem fillFrom_placeholder {name : Option String} {p : Placeholder}
    (hpercent : cs.head? ≠ some '%') (hname : name? cs = .ok (name, p.written ++ rest))
    (hlook : lookUp items name supply = .ok (.fresh i)) (hp : p.Wellformed)
    (hfront : Writes p.form i front)
    (hrest : fillFrom items length fuel .used rest = .ok out) :
    fillFrom items length (fuel + 1) supply ('%' :: cs) = .ok (front ++ out) := by
  have hform := Placeholder.form_written hp hfront.letter_mem (.fresh i) rest
  rw [fillFrom.eq_4 _ _ _ _ _ fun _ heq => hpercent (by rw [heq]; rfl), hname]
  refine bind_eq_ok_iff.2 ⟨_, rfl, ?_⟩
  refine bind_eq_ok_iff.2 ⟨_, hlook, ?_⟩
  refine bind_eq_ok_iff.2 ⟨_, hform, ?_⟩
  refine bind_eq_ok_iff.2 ⟨_, write_eq_ok_iff.2 hfront, ?_⟩
  exact bind_eq_ok_iff.2 ⟨_, hrest, rfl⟩

/-- By induction on what the template says: each part of it is read as it is spelled. -/
theorem Expands.fillFrom_eq (hitems : Unbracketed items) (h : Expands items supply cs out)
    (hfuel : cs.length ≤ fuel) : fillFrom items length fuel supply cs = .ok out := by
  induction h generalizing fuel with
  | nil supply => cases fuel <;> rfl
  | plain hc hrest ih =>
    cases fuel with
    | zero => exact absurd hfuel (Nat.not_succ_le_zero _)
    | succ fuel =>
      rw [fillFrom.eq_5 _ _ _ _ _ _ (fun _ h => absurd h hc) hc,
        ih (Nat.le_of_succ_le_succ hfuel)]
      rfl
  | percent hrest ih =>
    cases fuel with
    | zero => exact absurd hfuel (Nat.not_succ_le_zero _)
    | succ fuel =>
      rw [fillFrom.eq_3, ih]
      · rfl
      · rw [List.length_cons, List.length_cons] at hfuel
        omega
  | @unnamed i p front cs out hp hfront hrest ih =>
    cases fuel with
    | zero => exact absurd hfuel (Nat.not_succ_le_zero _)
    | succ fuel =>
      have hhead := Placeholder.head?_written hp hfront.letter_mem cs
      refine fillFrom_placeholder (fun heq => (hhead '%' heq).1 rfl)
        (name?_none fun c hc => (hhead c hc).2) rfl hp hfront (ih ?_)
      have hpos := p.length_written_pos
      rw [List.length_cons, List.length_append] at hfuel
      omega
  | @named supply n i p front cs out hi hp hfront hrest ih =>
    cases fuel with
    | zero => exact absurd hfuel (Nat.not_succ_le_zero _)
    | succ fuel =>
      have hn : n ∈ Keyed.keys items := Keyed.mem_keys_iff.2 (by rw [Keyed.holds, hi]; rfl)
      have hlook : lookUp items (some n) supply = .ok (.fresh i) := by rw [lookUp, hi]
      refine fillFrom_placeholder (by simp) (name?_some (hitems n hn)) hlook hp hfront (ih ?_)
      simp only [List.length_cons, List.length_append] at hfuel
      omega

/-- **Filling a template** gives the text that the template stands for, and fails if there is none. -/
theorem fill_eq_ok_iff (hitems : Unbracketed items) {template text : String} :
    fill items template = .ok text ↔
      Expands items (.fresh (.all items)) template.toList text.toList := by
  rw [fill, map_eq_ok_iff]
  constructor
  · rintro ⟨out, hout, rfl⟩
    rw [String.toList_ofList]
    exact expands_of_fillFrom (Nat.le_refl _) hout
  · intro h
    exact ⟨_, h.fillFrom_eq hitems (Nat.le_refl _), String.ofList_toList⟩

end LinkOverride.Text.Template
