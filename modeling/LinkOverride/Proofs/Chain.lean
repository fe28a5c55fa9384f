import LinkOverride.Proofs.Layout
import LinkOverride.Proofs.Spelling

/-!
# Octets between separators of both kinds

Octets of one digit or two stand in a row, with a colon or a hyphen between each two of them. One
hyphen is enough to make the hyphens cut the text. What stands between two hyphens is then padded as
one field, so a single digit is padded only if nothing else stands in its field: no colon may stand
beside it.

So such a row is read in two cases, and in these it gives the address of its octets: there is no
hyphen, or every octet beside a colon has two digits.
-/

namespace LinkOverride

namespace Text

variable {α : Type} {sep : Char} {P : List Char → List α → Prop}

theorem separated_iff_of_not_mem {cs : List Char} (h : sep ∉ cs) {ds : List α} :
    Separated sep P cs ds ↔ P cs ds := by
  refine ⟨fun hs => ?_, .last⟩
  cases hs with
  | last field => exact field
  | cons field rest => exact absurd (List.mem_append_right _ List.mem_cons_self) h

end Text

namespace Address

open Text (Separated separated_iff_of_not_mem Blank)

/-! ## Rows of octets -/

/-- An octet as it is written, and its two digits. -/
structure Octet where
  text : List Char
  digits : List (Fin 16)
  field : Field text digits

/-- What may stand between two octets. -/
inductive Separator
  | colon
  | hyphen
  deriving DecidableEq, Repr

def Separator.char : Separator → Char
  | colon => ':'
  | hyphen => '-'

/-- Octets in a row, each but the first behind its separator. -/
def chain (o : Octet) : List (Separator × Octet) → List Char
  | [] => o.text
  | (sep, p) :: rest => o.text ++ sep.char :: chain p rest

/-- The digits of the octets in a row. -/
def chainDigits (o : Octet) : List (Separator × Octet) → List (Fin 16)
  | [] => o.digits
  | (_, p) :: rest => o.digits ++ chainDigits p rest

/-- Every octet beside a colon has two digits. -/
def FullAtColons (o : Octet) : List (Separator × Octet) → Prop
  | [] => True
  | (sep, p) :: rest =>
    (sep = .colon → o.text.length = 2 ∧ p.text.length = 2) ∧ FullAtColons p rest

namespace Octet

variable (o : Octet)

theorem not_mem : ':' ∉ o.text ∧ '-' ∉ o.text ∧ '.' ∉ o.text := o.field.not_mem

theorem block : Block o.text o.digits := (block_iff_field o.not_mem.1).2 o.field

theorem length_digits : o.digits.length = 2 := by
  rcases o.field with ⟨d, -, h⟩ | h
  · rw [h]
    rfl
  · exact h.length_eq

theorem full (h : o.text.length = 2) : Digits Spells 2 o.text o.digits := by
  rcases o.field with ⟨d, hd, -⟩ | hd
  · exact absurd (hd.1.symm.trans h) (by decide)
  · exact hd

/-- An octet between two colons that are not padded has two digits. -/
theorem length_of_separated {es : List (Fin 16)}
    (h : Separated ':' (Digits Spells 2) o.text es) : o.text.length = 2 :=
  ((separated_iff_of_not_mem o.not_mem.1).1 h).1

/-- An octet of one digit. -/
def short (c : Char) (d : Fin 16) (h : Spells c d) : Octet :=
  ⟨[c], [⟨0, sixteen_pos⟩, d], .inl ⟨d, digits_one_iff.2 ⟨c, d, rfl, rfl, h⟩, rfl⟩⟩

/-- An octet of two digits. -/
def long (a b : Char) (x y : Fin 16) (ha : Spells a x) (hb : Spells b y) : Octet :=
  ⟨[a, b], [x, y], .inr (digits_two_iff.2 ⟨a, b, x, y, rfl, rfl, ha, hb⟩)⟩

end Octet

variable {o : Octet} {rest : List (Separator × Octet)} {ds : List (Fin 16)}

theorem length_chainDigits (o : Octet) (rest : List (Separator × Octet)) :
    (chainDigits o rest).length = 2 * rest.length + 2 := by
  induction rest generalizing o with
  | nil => exact o.length_digits
  | cons q rest ih =>
    rw [chainDigits, List.length_append, o.length_digits, ih, List.length_cons]
    omega

theorem forall_mem_chain {p : Char → Prop} (hoctet : ∀ o : Octet, ∀ c ∈ o.text, p c)
    (hsep : ∀ q ∈ rest, p q.1.char) : ∀ c ∈ chain o rest, p c := by
  induction rest generalizing o with
  | nil => exact hoctet o
  | cons q rest ih =>
    intro c hc
    rcases List.mem_append.1 hc with hc | hc
    · exact hoctet o c hc
    rcases List.mem_cons.1 hc with rfl | hc
    · exact hsep q List.mem_cons_self
    · exact ih (fun q' hq' => hsep q' (List.mem_cons_of_mem _ hq')) c hc

theorem hyphen_mem_chain {q : Separator × Octet} (hq : q ∈ rest) (h : q.1 = .hyphen) :
    '-' ∈ chain o rest := by
  induction rest generalizing o with
  | nil => exact absurd hq List.not_mem_nil
  | cons q' rest ih =>
    rw [chain, List.mem_append]
    refine .inr ?_
    rcases List.mem_cons.1 hq with rfl | hq
    · rw [h]
      exact List.mem_cons_self
    · exact List.mem_cons_of_mem _ (ih hq)

theorem hyphen_not_mem_chain (h : ∀ q ∈ rest, q.1 = .colon) : '-' ∉ chain o rest := by
  have hne : ∀ c ∈ chain o rest, c ≠ '-' := by
    refine forall_mem_chain (fun o c hc he => o.not_mem.2.1 (he ▸ hc)) fun q hq => ?_
    rw [h q hq]
    decide
  exact fun hmem => hne _ hmem rfl

/-! ## Colons alone -/

theorem separated_of_colons (h : ∀ q ∈ rest, q.1 = .colon) :
    Separated ':' Field (chain o rest) (chainDigits o rest) := by
  induction rest generalizing o with
  | nil => exact .last o.field
  | cons q rest ih =>
    have hcolon : q.1 = .colon := h q List.mem_cons_self
    rw [chain, chainDigits, hcolon]
    exact .cons o.field (ih fun q' hq' => h q' (List.mem_cons_of_mem _ hq'))

/-! ## Hyphens -/

/-- Octets that are full at colons are blocks between hyphens. The second part has the octets that
stand before them in the same block. -/
theorem separated_of_full (h : FullAtColons o rest) :
    Separated '-' Block (chain o rest) (chainDigits o rest) ∧
      (o.text.length = 2 → ∀ front es, Separated ':' (Digits Spells 2) front es →
        Separated '-' Block (front ++ ':' :: chain o rest) (es ++ chainDigits o rest)) := by
  induction rest generalizing o with
  | nil =>
    refine ⟨.last o.block, fun htwo front es hfront => ?_⟩
    exact .last (.inr (hfront.append (.last (o.full htwo))))
  | cons q rest ih =>
    obtain ⟨sep, p⟩ := q
    obtain ⟨hcolon, hrest⟩ := h
    obtain ⟨hblocks, hbehind⟩ := ih hrest
    cases sep with
    | hyphen =>
      refine ⟨.cons o.block hblocks, fun htwo front es hfront => ?_⟩
      rw [chain, chainDigits, ← List.append_assoc, ← List.cons_append, ← List.append_assoc]
      exact .cons (.inr (hfront.append (.last (o.full htwo)))) hblocks
    | colon =>
      obtain ⟨htwo, hnext⟩ := hcolon rfl
      refine ⟨hbehind hnext _ _ (.last (o.full htwo)), fun _ front es hfront => ?_⟩
      rw [chain, chainDigits, ← List.append_assoc, ← List.cons_append, ← List.append_assoc]
      exact hbehind hnext _ _ (hfront.append (.last (o.full htwo)))

/-- Before a colon a block has octets of two digits. -/
theorem octets_before_colon {front back : List Char} (hfront : '-' ∉ front)
    (h : Separated '-' Block (front ++ ':' :: back) ds) :
    ∃ es, Separated ':' (Digits Spells 2) front es := by
  have hblock : ∀ {cs es}, Block (front ++ ':' :: cs) es →
      ∃ es, Separated ':' (Digits Spells 2) front es := by
    intro cs es hb
    rcases hb with hshort | hoctets
    · exact absurd (List.mem_append_right _ List.mem_cons_self) hshort.not_mem.1
    · obtain ⟨es₁, -, h₁, -, -⟩ := hoctets.split fun _ _ hf => hf.not_mem.1
      exact ⟨es₁, h₁⟩
  generalize hcs : front ++ ':' :: back = cs at h
  cases h with
  | last field => exact hblock (hcs ▸ field)
  | @cons f cs' _ _ field _ =>
    rcases List.append_eq_append_iff.1 hcs with ⟨mid, hf, hback⟩ | ⟨mid, hf, hback⟩
    · cases mid with
      | nil => exact absurd (List.cons.inj hback).1 (by simp)
      | cons c mid =>
        obtain ⟨rfl, -⟩ := List.cons.inj hback
        exact hblock (hf ▸ field)
    · cases mid with
      | nil => exact absurd (List.cons.inj hback).1 (by simp)
      | cons c mid =>
        obtain ⟨rfl, -⟩ := List.cons.inj hback
        exact absurd (hf ▸ List.mem_append_right _ List.mem_cons_self) hfront

theorem hyphen_not_mem_behind {front : List Char} (hfront : '-' ∉ front) (o : Octet) :
    '-' ∉ front ++ ':' :: o.text := by
  simp only [List.mem_append, List.mem_cons, not_or]
  exact ⟨hfront, by decide, o.not_mem.2.1⟩

/-- So has the octet behind that colon, if a hyphen or the end follows it. -/
theorem length_of_last {front : List Char} (hfront : '-' ∉ front)
    (h : Separated '-' Block (front ++ ':' :: o.text) ds) : o.text.length = 2 := by
  rcases (separated_iff_of_not_mem (hyphen_not_mem_behind hfront o)).1 h with hshort | hoctets
  · exact absurd (List.mem_append_right _ List.mem_cons_self) hshort.not_mem.1
  · obtain ⟨-, es, -, hlast, -⟩ := hoctets.split fun _ _ hf => hf.not_mem.1
    exact o.length_of_separated hlast

/-- Octets that are blocks between hyphens are full at colons, and if others stand before them in
the same block, so is the first one. -/
theorem full_of_separated :
    (Separated '-' Block (chain o rest) ds → FullAtColons o rest) ∧
      ∀ front, '-' ∉ front → Separated '-' Block (front ++ ':' :: chain o rest) ds →
        o.text.length = 2 ∧ FullAtColons o rest := by
  have hsep : ∀ f es, Block f es → '-' ∉ f := fun _ _ hf => hf.not_mem.1
  induction rest generalizing o ds with
  | nil => exact ⟨fun _ => trivial, fun front hfront h => ⟨length_of_last hfront h, trivial⟩⟩
  | cons q rest ih =>
    obtain ⟨sep, p⟩ := q
    cases sep with
    | hyphen =>
      refine ⟨fun h => ?_, fun front hfront h => ?_⟩
      · obtain ⟨-, es, -, hrest, -⟩ := h.split hsep
        exact ⟨fun h => absurd h (by simp), ih.1 hrest⟩
      · rw [chain, ← List.cons_append, ← List.append_assoc] at h
        obtain ⟨es, es', hlast, hrest, -⟩ := h.split hsep
        exact ⟨length_of_last hfront hlast, fun h => absurd h (by simp), ih.1 hrest⟩
    | colon =>
      refine ⟨fun h => ?_, fun front hfront h => ?_⟩
      · obtain ⟨es, hes⟩ := octets_before_colon o.not_mem.2.1 h
        obtain ⟨hp, hrest⟩ := ih.2 o.text o.not_mem.2.1 h
        exact ⟨fun _ => ⟨o.length_of_separated hes, hp⟩, hrest⟩
      · rw [chain, ← List.cons_append, ← List.append_assoc] at h
        have hplain := hyphen_not_mem_behind hfront o
        obtain ⟨es, hes⟩ := octets_before_colon hplain h
        obtain ⟨-, es', -, hlast, -⟩ := hes.split fun _ _ hf => hf.not_mem.1
        have ho := o.length_of_separated hlast
        obtain ⟨hp, hrest⟩ := ih.2 _ hplain h
        exact ⟨ho, fun _ => ⟨ho, hp⟩, hrest⟩

/-! ## Six octets -/

/-- Octets in a row that are read: no hyphen cuts them, or where one does they need no padding. -/
def Readable (o : Octet) (rest : List (Separator × Octet)) : Prop :=
  (∀ q ∈ rest, q.1 = .colon) ∨ FullAtColons o rest

theorem written_chain (hsix : rest.length = 5) (h : Readable o rest) :
    Written (chain o rest) (chainDigits o rest) := by
  have hlen : (chainDigits o rest).length = digitCount := by
    rw [length_chainDigits, hsix]
    rfl
  by_cases hcolons : ∀ q ∈ rest, q.1 = .colon
  · exact .colons (hyphen_not_mem_chain hcolons) (separated_of_colons hcolons) hlen
  · obtain ⟨q, hq, hne⟩ : ∃ q ∈ rest, q.1 ≠ .colon := by
      simpa only [not_forall, exists_prop] using hcolons
    have hhyphen : q.1 = .hyphen := by
      cases hsep : q.1 with
      | colon => exact absurd hsep hne
      | hyphen => rfl
    exact .hyphens (hyphen_mem_chain hq hhyphen)
      (separated_of_full (h.resolve_left hcolons)).1 hlen

/-- **A row of six octets writes an address** exactly if it is readable. -/
theorem exists_written_chain_iff (hsix : rest.length = 5) :
    (∃ ds, Written (chain o rest) ds) ↔ Readable o rest := by
  refine ⟨?_, fun h => ⟨_, written_chain hsix h⟩⟩
  rintro ⟨ds, hgroups | ⟨hplain, -⟩ | ⟨-, hblocks, -⟩⟩
  · -- A row has no dot, so that it would be a single group.
    have hdot : ∀ c ∈ chain o rest, c ≠ '.' := by
      refine forall_mem_chain (fun o c hc he => o.not_mem.2.2 (he ▸ hc)) fun q _ => ?_
      cases q.1 <;> decide
    have hgroup := (separated_iff_of_not_mem fun hmem => hdot _ hmem rfl).1 hgroups
    have hfour := hgroup.length_eq
    rw [‹ds.length = digitCount›] at hfour
    exact absurd hfour (by decide)
  · refine .inl fun q hq => ?_
    cases hsep : q.1 with
    | colon => rfl
    | hyphen => exact absurd (hyphen_mem_chain hq hsep) hplain
  · exact .inr (full_of_separated.1 hblocks)

theorem Spells.not_blank {c : Char} {d : Fin 16} (h : Spells c d) : Text.isBlank c = false := by
  revert d
  have hall : ∀ d : Fin 16, Text.isBlank (Text.hexDigit d) = false ∧
      Text.isBlank (Text.hexDigit d).toUpper = false := by decide
  rintro d (rfl | rfl)
  · exact (hall d).1
  · exact (hall d).2

theorem Digits.not_blank {n : Nat} {f : List Char} (h : Digits Spells n f ds) :
    ∀ c ∈ f, Text.isBlank c = false := by
  intro c hc
  obtain ⟨d, hd⟩ := Text.exists_forall₂_iff.1 ⟨ds, h.2⟩ c hc
  exact hd.not_blank

theorem not_blank_chain (o : Octet) (rest : List (Separator × Octet)) :
    ∀ c ∈ chain o rest, Text.isBlank c = false := by
  refine forall_mem_chain (fun o => ?_) fun q _ => ?_
  · rcases o.field with ⟨d, hd, -⟩ | hd
    · exact hd.not_blank
    · exact hd.not_blank
  · cases q.1 <;> decide

theorem chain_ne_nil (o : Octet) (rest : List (Separator × Octet)) : chain o rest ≠ [] := by
  have ho : o.text ≠ [] := by
    rcases o.field with ⟨d, hd, -⟩ | hd
    · exact List.ne_nil_of_length_pos (by rw [hd.1]; decide)
    · exact List.ne_nil_of_length_pos (by rw [hd.1]; decide)
  cases rest with
  | nil => exact ho
  | cons q rest => exact List.append_ne_nil_of_left_ne_nil ho _

end Address

namespace Machine

open Address Text

/-- **Six octets with separators of both kinds**, and blanks around them. Whichever separators they
have, they give the one address that has their digits if they are readable, and are refused if not.
No digit is drawn. -/
theorem readAddress_chain {o : Octet} {rest : List (Separator × Octet)} (hsix : rest.length = 5)
    {front back : List Char} (hfront : Blank front) (hback : Blank back) (m : Machine) :
    let s := String.ofList (front ++ chain o rest ++ back)
    (Readable o rest →
      readAddress s m = (.ok (String.ofList (ofDigits (chainDigits o rest))), m)) ∧
    (¬ Readable o rest → readAddress s m = (.error (.invalidAddress s .notSixOctets), m)) := by
  intro s
  have hstrip : (strip s).toList = chain o rest := by
    rw [toList_strip, String.toList_ofList, trim_surrounded hfront hback,
      trim_of_not_blank (not_blank_chain o rest)]
  constructor
  · intro h
    refine readAddress_of_written ?_ m
    rw [hstrip]
    exact written_chain hsix h
  · intro h
    have hrandom : strip s ≠ randomWord := by
      intro hword
      have hblank := not_blank_chain o rest ' '
      rw [← hstrip, hword] at hblank
      exact absurd (hblank (by decide)) (by decide)
    have hempty : strip s ≠ "" := by
      intro he
      rw [he] at hstrip
      exact chain_ne_nil o rest hstrip.symm
    have hunwritten : ¬ ∃ ds, Written (strip s).toList ds := by
      rw [hstrip, exists_written_chain_iff hsix]
      exact h
    rw [readAddress_apply, read_of_not_octets hrandom hempty hunwritten, drawnFor,
      if_neg (asksRandom_iff.not.2 hrandom)]
    rfl

/-- The one short octet of this row stands between hyphens. -/
theorem readAddress_chain_shortBetweenHyphens :
    Blank [' '] ∧ Blank ['\n'] ∧
      ∀ m, readAddress " 00-1b:2C-3-4d:5E\n" m = (.ok "00:1b:2c:03:4d:5e", m) := by
  have hfront : Blank [' '] := List.forall_mem_singleton.2 (by decide)
  have hback : Blank ['\n'] := List.forall_mem_singleton.2 (by decide)
  refine ⟨hfront, hback, fun m => ?_⟩
  have hsix : List.length [(Separator.hyphen, Octet.long '1' 'b' 1 11 (by decide) (by decide)),
      (.colon, .long '2' 'C' 2 12 (by decide) (by decide)), (.hyphen, .short '3' 3 (by decide)),
      (.hyphen, .long '4' 'd' 4 13 (by decide) (by decide)),
      (.colon, .long '5' 'E' 5 14 (by decide) (by decide))] = 5 := rfl
  have hrow := readAddress_chain (o := .long '0' '0' 0 0 (by decide) (by decide)) hsix hfront hback m
  refine hrow.1 (.inr ?_)
  simp [FullAtColons, Octet.long]

/-- **A hyphen among short octets.** Six octets are read with colons between them, and refused with
one hyphen in place of the first colon. -/
theorem readAddress_hyphen_among_shorts :
    (∃ o rest, rest.length = 5 ∧ String.ofList (chain o rest) = "1-2:3:4:5:6" ∧
        String.ofList (ofDigits (chainDigits o rest)) = "01:02:03:04:05:06") ∧
      ∀ m, readAddress "1:2:3:4:5:6" m = (.ok "01:02:03:04:05:06", m) ∧
        readAddress "1-2:3:4:5:6" m =
          (.error (.invalidAddress "1-2:3:4:5:6" .notSixOctets), m) := by
  refine ⟨?_, fun m => ⟨?_, ?_⟩⟩
  · refine ⟨.short '1' 1 (by decide), [(.hyphen, .short '2' 2 (by decide)),
      (.colon, .short '3' 3 (by decide)), (.colon, .short '4' 4 (by decide)),
      (.colon, .short '5' 5 (by decide)), (.colon, .short '6' 6 (by decide))], rfl, ?_, ?_⟩
    · decide
    · decide
  · have hread : read [] "1:2:3:4:5:6" = .ok "01:02:03:04:05:06" := by decide +kernel
    rw [readAddress_apply, digitsOf, drawnFor, if_neg (by decide), if_neg (by decide), hread]
    rfl
  · have hread : read [] "1-2:3:4:5:6" = .error .notSixOctets := by decide +kernel
    rw [readAddress_apply, digitsOf, drawnFor, if_neg (by decide), if_neg (by decide), hread]
    rfl

end Machine

end LinkOverride
