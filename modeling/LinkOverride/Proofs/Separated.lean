import LinkOverride.Text.Words
import Mathlib.Data.List.Forall2

/-!
# Text between separators

A separator cuts a text into fields. `Separated sep P` is the converse: the text is made of fields,
with the separator between each two of them, and `P` says what each field stands for. What the whole
text stands for is what its fields stand for, one after the other.

If no field holds the separator, the fields are those that splitting the text gives. So the relation
can be read off the fields, and a text that is joined from several parts is separated exactly if each
part is.
-/

namespace LinkOverride.Text

/-! ## Splitting -/

theorem splitAtSep_of_not_mem {sep : Char} {f : List Char} (h : sep ∉ f) :
    splitAtSep sep f = [f] := by
  induction f with
  | nil => rfl
  | cons c f ih =>
    rw [List.mem_cons, not_or] at h
    rw [splitAtSep, if_neg (Ne.symm h.1), ih h.2]

theorem splitAtSep_append_cons {sep : Char} {f : List Char} (h : sep ∉ f) (cs : List Char) :
    splitAtSep sep (f ++ sep :: cs) = f :: splitAtSep sep cs := by
  induction f with
  | nil => rw [List.nil_append, splitAtSep, if_pos rfl]
  | cons c f ih =>
    rw [List.mem_cons, not_or] at h
    rw [List.cons_append, splitAtSep, if_neg (Ne.symm h.1), ih h.2]

theorem not_mem_of_mem_splitAtSep {sep : Char} {f cs : List Char} (h : f ∈ splitAtSep sep cs) :
    sep ∉ f := by
  induction cs generalizing f with
  | nil =>
    rw [List.mem_singleton.1 h]
    exact List.not_mem_nil
  | cons c cs ih =>
    rw [splitAtSep] at h
    split at h
    · rcases List.mem_cons.1 h with rfl | h
      · exact List.not_mem_nil
      · exact ih h
    · next hc =>
      split at h
      · next hnil => exact absurd hnil (splitAtSep_ne_nil sep cs)
      · next g gs hsplit =>
        rcases List.mem_cons.1 h with rfl | h
        · have hg : sep ∉ g := ih (by rw [hsplit]; exact List.mem_cons_self)
          intro hmem
          rcases List.mem_cons.1 hmem with heq | hmem
          · exact hc heq.symm
          · exact hg hmem
        · exact ih (by rw [hsplit]; exact List.mem_cons_of_mem _ h)

/-! ## Lists related member by member -/

theorem exists_forall₂_iff {α β : Type} {R : α → β → Prop} {xs : List α} :
    (∃ ys, List.Forall₂ R xs ys) ↔ ∀ x ∈ xs, ∃ y, R x y := by
  induction xs with
  | nil => exact ⟨fun _ _ h => absurd h List.not_mem_nil, fun _ => ⟨[], .nil⟩⟩
  | cons x xs ih =>
    rw [List.forall_mem_cons, ← ih]
    constructor
    · rintro ⟨_, _ | ⟨hy, hys⟩⟩
      exact ⟨⟨_, hy⟩, _, hys⟩
    · rintro ⟨⟨y, hy⟩, ys, hys⟩
      exact ⟨y :: ys, .cons hy hys⟩

/-! ## Separated fields -/

variable {α : Type} {sep : Char} {P Q : List Char → List α → Prop}

/-- Fields with a separator between each two, and what all of them stand for. -/
inductive Separated (sep : Char) (P : List Char → List α → Prop) : List Char → List α → Prop
  | last {f : List Char} {ds : List α} (field : P f ds) : Separated sep P f ds
  | cons {f cs : List Char} {ds es : List α} (field : P f ds) (rest : Separated sep P cs es) :
      Separated sep P (f ++ sep :: cs) (ds ++ es)

namespace Separated

theorem mono {cs : List Char} {ds : List α} (h : Separated sep P cs ds)
    (hpq : ∀ f ds, P f ds → Q f ds) : Separated sep Q cs ds := by
  induction h with
  | last field => exact .last (hpq _ _ field)
  | cons field _ ih => exact .cons (hpq _ _ field) ih

theorem append {cs cs' : List Char} {ds ds' : List α} (h : Separated sep P cs ds)
    (h' : Separated sep P cs' ds') : Separated sep P (cs ++ sep :: cs') (ds ++ ds') := by
  induction h with
  | last field => exact .cons field h'
  | cons field _ ih =>
    rw [List.append_assoc, List.append_assoc, List.cons_append]
    exact .cons field ih

/-- A property of the characters of all fields, that the separator has too. -/
theorem forall_mem {p : Char → Prop} {cs : List Char} {ds : List α} (h : Separated sep P cs ds)
    (hsep : p sep) (hfield : ∀ f ds, P f ds → ∀ c ∈ f, p c) : ∀ c ∈ cs, p c := by
  induction h with
  | last field => exact hfield _ _ field
  | cons field _ ih =>
    intro c hc
    rcases List.mem_append.1 hc with hc | hc
    · exact hfield _ _ field c hc
    · rcases List.mem_cons.1 hc with rfl | hc
      · exact hsep
      · exact ih c hc

end Separated

theorem separated_joinSep {fs : List (List Char)} {dss : List (List α)} (hne : fs ≠ [])
    (h : List.Forall₂ P fs dss) : Separated sep P (joinSep sep fs) dss.flatten := by
  induction h with
  | nil => exact absurd rfl hne
  | @cons f ds fs dss field rest ih =>
    cases rest with
    | nil =>
      rw [List.flatten_cons, List.flatten_nil, List.append_nil]
      exact .last field
    | cons field' rest' => exact .cons field (ih (List.cons_ne_nil _ _))

/-- **The fields of a separated text** are those that splitting it gives. -/
theorem separated_iff (hsep : ∀ f ds, P f ds → sep ∉ f) {cs : List Char} {ds : List α} :
    Separated sep P cs ds ↔
      ∃ dss, List.Forall₂ P (splitAtSep sep cs) dss ∧ ds = dss.flatten := by
  constructor
  · intro h
    induction h with
    | @last f ds field =>
      refine ⟨[ds], ?_, by rw [List.flatten_cons, List.flatten_nil, List.append_nil]⟩
      rw [splitAtSep_of_not_mem (hsep _ _ field)]
      exact .cons field .nil
    | @cons f cs ds es field rest ih =>
      obtain ⟨dss, hfields, rfl⟩ := ih
      refine ⟨ds :: dss, ?_, List.flatten_cons.symm⟩
      rw [splitAtSep_append_cons (hsep _ _ field)]
      exact .cons field hfields
  · intro h
    obtain ⟨dss, hfields, rfl⟩ := h
    have hjoined : Separated sep P (joinSep sep (splitAtSep sep cs)) dss.flatten :=
      separated_joinSep (splitAtSep_ne_nil sep cs) hfields
    rwa [joinSep_splitAtSep] at hjoined

/-- If a field stands for one thing only, so does the text. -/
theorem Separated.unique (hsep : ∀ f ds, P f ds → sep ∉ f) (hunique : Relator.RightUnique P)
    {cs : List Char} {ds es : List α} (h : Separated sep P cs ds) (h' : Separated sep P cs es) :
    ds = es := by
  obtain ⟨dss, hdss, rfl⟩ := (separated_iff hsep).1 h
  obtain ⟨ess, hess, rfl⟩ := (separated_iff hsep).1 h'
  rw [hunique.forall₂ hdss hess]

/-- At any of its separators a separated text can be taken apart. -/
theorem Separated.split (hsep : ∀ f ds, P f ds → sep ∉ f) {front back : List Char} {ds : List α}
    (h : Separated sep P (front ++ sep :: back) ds) :
    ∃ ds₁ ds₂, Separated sep P front ds₁ ∧ Separated sep P back ds₂ ∧ ds = ds₁ ++ ds₂ := by
  generalize hcs : front ++ sep :: back = cs at h
  induction h generalizing front with
  | @last f ds field =>
    refine absurd ?_ (hsep f ds field)
    rw [← hcs]
    exact List.mem_append_right _ List.mem_cons_self
  | @cons f cs ds es field rest ih =>
    have hf := hsep f ds field
    rcases List.append_eq_append_iff.1 hcs with ⟨mid, hmid, hback⟩ | ⟨mid, hmid, hback⟩
    · cases mid with
      | nil =>
        rw [List.append_nil] at hmid
        rw [List.nil_append] at hback
        rw [← hmid, (List.cons.inj hback).2]
        exact ⟨ds, es, .last field, rest, rfl⟩
      | cons c mid =>
        refine absurd ?_ hf
        rw [hmid, ← (List.cons.inj hback).1]
        exact List.mem_append_right _ List.mem_cons_self
    · cases mid with
      | nil =>
        rw [List.append_nil] at hmid
        rw [List.nil_append] at hback
        rw [hmid, ← (List.cons.inj hback).2]
        exact ⟨ds, es, .last field, rest, rfl⟩
      | cons c mid =>
        obtain ⟨rfl, hrest⟩ := List.cons.inj hback
        obtain ⟨ds₁, ds₂, hfront, hback', rfl⟩ := ih hrest.symm
        refine ⟨ds ++ ds₁, ds₂, ?_, hback', (List.append_assoc _ _ _).symm⟩
        rw [hmid]
        exact .cons field hfront

/-- **A text joined from parts** is separated exactly if every part is. -/
theorem separated_joinSep_iff (hsep : ∀ f ds, P f ds → sep ∉ f) {parts : List (List Char)}
    (hne : parts ≠ []) {ds : List α} :
    Separated sep P (joinSep sep parts) ds ↔
      ∃ dss, List.Forall₂ (Separated sep P) parts dss ∧ ds = dss.flatten := by
  induction parts generalizing ds with
  | nil => exact absurd rfl hne
  | cons part parts ih =>
    cases parts with
    | nil =>
      constructor
      · intro h
        exact ⟨[ds], .cons h .nil, by rw [List.flatten_cons, List.flatten_nil, List.append_nil]⟩
      · intro h
        obtain ⟨dss, hparts, rfl⟩ := h
        cases hparts with
        | cons hpart hnil =>
          cases hnil
          rw [List.flatten_cons, List.flatten_nil, List.append_nil]
          exact hpart
    | cons next parts =>
      rw [joinSep_cons_cons]
      constructor
      · intro h
        obtain ⟨ds₁, ds₂, hpart, hrest, rfl⟩ := h.split hsep
        obtain ⟨dss, hparts, rfl⟩ := (ih (List.cons_ne_nil _ _)).1 hrest
        exact ⟨ds₁ :: dss, .cons hpart hparts, List.flatten_cons.symm⟩
      · intro h
        obtain ⟨dss, hparts, rfl⟩ := h
        cases hparts with
        | cons hpart hrest =>
          rw [List.flatten_cons]
          exact hpart.append ((ih (List.cons_ne_nil _ _)).2 ⟨_, hrest, rfl⟩)

end LinkOverride.Text
