import LinkOverride.Proofs.Canonical
import LinkOverride.Proofs.Growth

/-!
# How an address is written

An address is written by twelve hexadecimal digits in one of three notations: groups of four with
dots, octets with colons, or blocks of octets with hyphens. In the last two a single digit may stand
for an octet. `Written` says so of a text and its digits, without reference to how a text is read.

The fields of a text are padded and joined again before anything is checked. That is undone field by
field: the normal form of a text is canonical exactly if the text is written.
-/

namespace LinkOverride

namespace Address

open Text (Separated separated_iff exists_forall₂_iff)

/-! ## The notations -/

theorem sixteen_pos : 0 < 16 := by decide

/-- A single digit that stands for an octet, whose first digit is nought. -/
def Short (cs : List Char) (ds : List (Fin 16)) : Prop :=
  ∃ d, Digits Spells 1 cs [d] ∧ ds = [⟨0, sixteen_pos⟩, d]

/-- What may stand between two colons. -/
def Field (cs : List Char) (ds : List (Fin 16)) : Prop := Short cs ds ∨ Digits Spells 2 cs ds

/-- What may stand between two hyphens. -/
def Block (cs : List Char) (ds : List (Fin 16)) : Prop :=
  Short cs ds ∨ Separated ':' (Digits Spells 2) cs ds

/-- **A text that writes an address**, and the digits that it writes. -/
inductive Written (cs : List Char) (ds : List (Fin 16)) : Prop
  | dotted (groups : Separated '.' (Digits Spells 4) cs ds) (length_eq : ds.length = digitCount)
  | colons (plain : '-' ∉ cs) (fields : Separated ':' Field cs ds)
      (length_eq : ds.length = digitCount)
  | hyphens (hyphen : '-' ∈ cs) (blocks : Separated '-' Block cs ds)
      (length_eq : ds.length = digitCount)

variable {f cs : List Char} {ds : List (Fin 16)}

theorem Digits.not_mem {n : Nat} (h : Digits Spells n f ds) :
    ':' ∉ f ∧ '-' ∉ f ∧ '.' ∉ f := by
  have hne : ∀ c ∈ f, c ≠ ':' ∧ c ≠ '-' ∧ c ≠ '.' := by
    intro c hc
    obtain ⟨d, hd⟩ := exists_forall₂_iff.1 ⟨ds, h.2⟩ c hc
    exact hd.ne
  exact ⟨fun h => (hne _ h).1 rfl, fun h => (hne _ h).2.1 rfl, fun h => (hne _ h).2.2 rfl⟩

theorem Short.not_mem (h : Short f ds) : ':' ∉ f ∧ '-' ∉ f ∧ '.' ∉ f := by
  obtain ⟨d, hd, -⟩ := h
  exact hd.not_mem

theorem Field.not_mem (h : Field f ds) : ':' ∉ f ∧ '-' ∉ f ∧ '.' ∉ f :=
  h.elim Short.not_mem Digits.not_mem

theorem Block.not_mem (h : Block f ds) : '-' ∉ f ∧ '.' ∉ f := by
  rcases h with h | h
  · exact h.not_mem.2
  · have hne : ∀ c ∈ f, c ≠ '-' ∧ c ≠ '.' := by
      refine h.forall_mem (by decide) ?_
      intro g ds' hg c hc
      exact ⟨fun he => hg.not_mem.2.1 (he ▸ hc), fun he => hg.not_mem.2.2 (he ▸ hc)⟩
    exact ⟨fun h => (hne _ h).1 rfl, fun h => (hne _ h).2 rfl⟩

/-- Between two colons a block is a field. -/
theorem block_iff_field (h : ':' ∉ f) : Block f ds ↔ Field f ds := by
  constructor
  · rintro (hshort | hoctets)
    · exact .inl hshort
    · cases hoctets with
      | last field => exact .inr field
      | cons field rest => exact absurd (List.mem_append_right _ List.mem_cons_self) h
  · rintro (hshort | hoctet)
    · exact .inl hshort
    · exact .inr (.last hoctet)

/-- Padding makes a short octet a long one, and nothing else an octet. -/
theorem separated_padOctet :
    Separated ':' (Digits Spells 2) (padOctet f) ds ↔ Block f ds := by
  by_cases hone : f.length = 1
  · obtain ⟨c, rfl⟩ := List.length_eq_one_iff.1 hone
    have hzero : Spells '0' 0 := by decide
    change Separated ':' (Digits Spells 2) ['0', c] ds ↔ _
    constructor
    · intro h
      generalize hcs : ['0', c] = cs at h
      cases h with
      | last field =>
        obtain ⟨a, b, x, y, rfl, rfl, hx, hy⟩ := digits_two_iff.1 field
        obtain ⟨rfl, hc⟩ := List.cons.inj hcs
        obtain rfl := List.singleton_inj.1 hc
        rw [hx.unique hzero]
        exact .inl ⟨y, digits_one_iff.2 ⟨c, y, rfl, rfl, hy⟩, rfl⟩
      | cons field rest =>
        have hlen := congrArg List.length hcs
        rw [List.length_append, field.1, List.length_cons] at hlen
        simp only [List.length_cons, List.length_nil] at hlen
        omega
    · rintro (⟨y, hy, rfl⟩ | h)
      · obtain ⟨a, y', ha, hy', hspells⟩ := digits_one_iff.1 hy
        obtain rfl := List.singleton_inj.1 ha
        obtain rfl := List.singleton_inj.1 hy'
        exact .last (digits_two_iff.2 ⟨'0', c, 0, y, rfl, rfl, hzero, hspells⟩)
      · have hlen := two_le_length_of_separated h
        simp at hlen
  · have hpad : padOctet f = f := by
      unfold padOctet
      split
      · exact absurd rfl hone
      · rfl
    rw [hpad]
    constructor
    · exact .inr
    · rintro (⟨y, hy, rfl⟩ | h)
      · exact absurd hy.1 hone
      · exact h

/-! ## The normal form -/

theorem isGroup_iff {g : List Char} :
    (g.length == 4 && g.all isHex) = true ↔ ∃ ds, Digits Spells 4 g ds := by
  simp only [Bool.and_eq_true, beq_iff_eq, List.all_eq_true, isHex_iff, ← exists_forall₂_iff,
    Digits, exists_and_left]

theorem dottedGroups?_eq_some {groups : List (List Char)} :
    dottedGroups? cs = some groups ↔
      groups = Text.splitAtSep '.' cs ∧ groups.length = 3 ∧
        ∃ dss, List.Forall₂ (Digits Spells 4) groups dss := by
  have hall : ((Text.splitAtSep '.' cs).all fun g => g.length == 4 && g.all isHex) = true ↔
      ∃ dss, List.Forall₂ (Digits Spells 4) (Text.splitAtSep '.' cs) dss := by
    rw [List.all_eq_true, exists_forall₂_iff]
    exact forall₂_congr fun _ _ => isGroup_iff
  simp only [dottedGroups?, Option.ite_none_right_eq_some, Bool.and_eq_true, beq_iff_eq, hall,
    Option.some.injEq]
  constructor
  · rintro ⟨⟨hthree, hdss⟩, rfl⟩
    exact ⟨rfl, hthree, hdss⟩
  · rintro ⟨rfl, hthree, hdss⟩
    exact ⟨⟨hthree, hdss⟩, rfl⟩

/-- A text has dotted groups exactly if it is written so. -/
theorem exists_dottedGroups_iff :
    (∃ groups, dottedGroups? cs = some groups) ↔
      ∃ ds, ds.length = digitCount ∧ Separated '.' (Digits Spells 4) cs ds := by
  have hsep : ∀ f ds, Digits Spells 4 f ds → '.' ∉ f := fun _ _ h => h.not_mem.2.2
  constructor
  · rintro ⟨groups, h⟩
    obtain ⟨rfl, hthree, dss, hdss⟩ := dottedGroups?_eq_some.1 h
    refine ⟨dss.flatten, ?_, (separated_iff hsep).2 ⟨dss, hdss, rfl⟩⟩
    rw [flatten_length_of_digits hdss, hthree]
    rfl
  · rintro ⟨ds, hlen, h⟩
    obtain ⟨dss, hdss, rfl⟩ := (separated_iff hsep).1 h
    rw [flatten_length_of_digits hdss, digitCount] at hlen
    exact ⟨_, dottedGroups?_eq_some.2 ⟨rfl, by omega, dss, hdss⟩⟩

/-- A group of four digits is two octets. -/
theorem octets_of_groups {gs : List (List Char)} {dss : List (List (Fin 16))}
    (h : List.Forall₂ (Digits Spells 4) gs dss) :
    ∃ ess, List.Forall₂ Block (gs.flatMap pairUp) ess ∧ ess.flatten = dss.flatten := by
  induction h with
  | nil => exact ⟨[], .nil, rfl⟩
  | @cons g ds gs dss field _ ih =>
    obtain ⟨ess, hess, hflat⟩ := ih
    obtain ⟨hfour, hdigits⟩ := field
    match g, ds, hfour, hdigits with
    | [a, b, c, d], _, _, .cons hx (.cons hy (.cons hz (.cons hw .nil))) =>
      have hoctet : ∀ {p q : Char} {x y : Fin 16}, Spells p x → Spells q y →
          Block [p, q] [x, y] := fun hp hq =>
        .inr (.last (digits_two_iff.2 ⟨_, _, _, _, rfl, rfl, hp, hq⟩))
      refine ⟨_ :: _ :: ess, .cons (hoctet hx hy) (.cons (hoctet hz hw) hess), ?_⟩
      rw [List.flatten_cons, List.flatten_cons, List.flatten_cons, hflat]
      rfl

theorem fieldsOf_ne_nil (cs : List Char) : fieldsOf cs ≠ [] := by
  rw [fieldsOf]
  split
  · next groups h =>
    obtain ⟨-, hthree, dss, hdss⟩ := dottedGroups?_eq_some.1 h
    obtain ⟨ess, hess, hflat⟩ := octets_of_groups hdss
    intro hnil
    rw [hnil] at hess
    obtain rfl := List.forall₂_nil_left_iff.1 hess
    have hlen := flatten_length_of_digits hdss
    rw [← hflat, hthree] at hlen
    exact absurd hlen (by decide)
  · split
    · exact Text.splitAtSep_ne_nil _ _
    · exact Text.splitAtSep_ne_nil _ _

/-- The normal form is canonical exactly if every field is a block. -/
theorem normalizeChars_eq_iff (hlen : ds.length = digitCount) :
    normalizeChars cs = ofDigits ds ↔
      ∃ dss, List.Forall₂ Block (fieldsOf cs) dss ∧ ds = dss.flatten := by
  have hne : (fieldsOf cs).map padOctet ≠ [] := by
    rw [Ne, List.map_eq_nil_iff]
    exact fieldsOf_ne_nil cs
  have hpad : ∀ dss, List.Forall₂ (Separated ':' (Digits Spells 2))
      ((fieldsOf cs).map padOctet) dss ↔ List.Forall₂ Block (fieldsOf cs) dss := by
    intro dss
    rw [List.forall₂_map_left_iff]
    simp only [separated_padOctet]
  rw [normalizeChars, lowerChars_eq_ofDigits hlen,
    Text.separated_joinSep_iff (fun _ _ h => h.not_mem.1) hne]
  simp only [hpad]

theorem digits_rightUnique (n : Nat) : Relator.RightUnique (Digits Spells n) :=
  fun _ _ _ h h' =>
    Relator.RightUnique.forall₂ (fun _ _ _ hs hs' => hs.unique hs') h.2 h'.2

/-- The digits of a canonical text stand in it. -/
theorem separated_ofDigits (hlen : ds.length = digitCount) :
    Separated ':' (Digits Spells 2) (ofDigits ds) ds :=
  ((eq_ofDigits_iff hlen).1 rfl).mono fun _ _ h =>
    ⟨h.1, h.2.imp fun _ _ hc => .inl hc⟩

theorem ofDigits_injective {es : List (Fin 16)} (hd : ds.length = digitCount)
    (he : es.length = digitCount) (h : ofDigits ds = ofDigits es) : ds = es :=
  (separated_ofDigits hd).unique (fun _ _ hf => hf.not_mem.1) (digits_rightUnique 2)
    (h ▸ separated_ofDigits he)

/-- A text with dotted groups is written in no other notation. -/
theorem Written.dotted_of_mem (h : Written cs ds) (hdot : '.' ∈ cs) :
    Separated '.' (Digits Spells 4) cs ds := by
  cases h with
  | dotted groups _ => exact groups
  | colons _ fields _ =>
    have hne : ∀ c ∈ cs, c ≠ '.' := fields.forall_mem (by decide) fun f ds hf c hc he =>
      hf.not_mem.2.2 (he ▸ hc)
    exact absurd rfl (hne _ hdot)
  | hyphens _ blocks _ =>
    have hne : ∀ c ∈ cs, c ≠ '.' := blocks.forall_mem (by decide) fun f ds hf c hc he =>
      hf.not_mem.2 (he ▸ hc)
    exact absurd rfl (hne _ hdot)

theorem normalizeChars_of_dotted (h : Separated '.' (Digits Spells 4) cs ds)
    (hlen : ds.length = digitCount) : normalizeChars cs = ofDigits ds := by
  obtain ⟨groups, hgroups⟩ := exists_dottedGroups_iff.2 ⟨ds, hlen, h⟩
  obtain ⟨rfl, -, -⟩ := dottedGroups?_eq_some.1 hgroups
  obtain ⟨dss, hdss, rfl⟩ := (separated_iff fun _ _ hf => hf.not_mem.2.2).1 h
  obtain ⟨ess, hess, hflat⟩ := octets_of_groups hdss
  have hfields : fieldsOf cs = (Text.splitAtSep '.' cs).flatMap pairUp := by
    rw [fieldsOf, hgroups]
  exact (normalizeChars_eq_iff hlen).2 ⟨ess, hfields ▸ hess, hflat.symm⟩

/-- Without dotted groups, the separator is a hyphen if there is one, else a colon. -/
theorem normalizeChars_of_not_dotted (h : dottedGroups? cs = none)
    (hlen : ds.length = digitCount) :
    normalizeChars cs = ofDigits ds ↔
      '-' ∉ cs ∧ Separated ':' Field cs ds ∨ '-' ∈ cs ∧ Separated '-' Block cs ds := by
  rw [normalizeChars_eq_iff hlen]
  by_cases hhyphen : '-' ∈ cs
  · have hfields : fieldsOf cs = Text.splitAtSep '-' cs := by
      rw [fieldsOf, h]
      exact if_pos (List.contains_iff_mem.2 hhyphen)
    rw [hfields, ← separated_iff fun _ _ hf => hf.not_mem.1]
    exact ⟨fun hs => .inr ⟨hhyphen, hs⟩, fun hs =>
      hs.elim (fun hn => absurd hhyphen hn.1) And.right⟩
  · have hfields : fieldsOf cs = Text.splitAtSep ':' cs := by
      rw [fieldsOf, h]
      exact if_neg fun hc => hhyphen (List.contains_iff_mem.1 hc)
    have hblocks : ∀ dss, List.Forall₂ Block (Text.splitAtSep ':' cs) dss ↔
        List.Forall₂ Field (Text.splitAtSep ':' cs) dss := by
      have hcolon : ∀ f ∈ Text.splitAtSep ':' cs, ':' ∉ f :=
        fun _ hf => Text.not_mem_of_mem_splitAtSep hf
      intro dss
      constructor
      · intro hb
        exact ((List.forall₂_and_left _ _).2 ⟨hcolon, hb⟩).imp fun _ _ hf =>
          (block_iff_field hf.1).1 hf.2
      · intro hf
        exact ((List.forall₂_and_left _ _).2 ⟨hcolon, hf⟩).imp fun _ _ hf =>
          (block_iff_field hf.1).2 hf.2
    rw [hfields]
    simp only [hblocks]
    rw [← separated_iff fun _ _ hf => hf.not_mem.1]
    exact ⟨fun hs => .inl ⟨hhyphen, hs⟩, fun hs =>
      hs.elim And.right fun hn => absurd hn.1 hhyphen⟩

/-- **The normal form of a text is canonical exactly if the text is written**, and its digits are
those that are written. -/
theorem normalizeChars_iff_written (hlen : ds.length = digitCount) :
    normalizeChars cs = ofDigits ds ↔ Written cs ds := by
  cases hdotted : dottedGroups? cs with
  | some groups =>
    obtain ⟨es, hes, hgroups⟩ := exists_dottedGroups_iff.1 ⟨groups, hdotted⟩
    have hnormal := normalizeChars_of_dotted hgroups hes
    have hdot : '.' ∈ cs := by
      obtain ⟨rfl, hthree, -⟩ := dottedGroups?_eq_some.1 hdotted
      rw [Text.length_splitAtSep] at hthree
      exact List.count_pos_iff.1 (by omega)
    constructor
    · intro h
      obtain rfl := ofDigits_injective hlen hes (h.symm.trans hnormal)
      exact .dotted hgroups hlen
    · intro h
      exact normalizeChars_of_dotted (h.dotted_of_mem hdot) hlen
  | none =>
    rw [normalizeChars_of_not_dotted hdotted hlen]
    constructor
    · rintro (⟨hplain, hfields⟩ | ⟨hhyphen, hblocks⟩)
      · exact .colons hplain hfields hlen
      · exact .hyphens hhyphen hblocks hlen
    · rintro (⟨hgroups, -⟩ | ⟨hplain, hfields, -⟩ | ⟨hhyphen, hblocks, -⟩)
      · obtain ⟨groups, hsome⟩ := exists_dottedGroups_iff.2 ⟨ds, hlen, hgroups⟩
        rw [hsome] at hdotted
        exact nomatch hdotted
      · exact .inl ⟨hplain, hfields⟩
      · exact .inr ⟨hhyphen, hblocks⟩

example : normalizeChars "00-1b:2C-3-4d:5E".toList = "00:1b:2c:03:4d:5e".toList := by
  decide +kernel

/-! ## Reading -/

theorem written_ofDigits (hlen : ds.length = digitCount) : Written (ofDigits ds) ds := by
  have hoctets := separated_ofDigits hlen
  refine .colons ?_ (hoctets.mono fun _ _ h => .inr h) hlen
  have hne : ∀ c ∈ ofDigits ds, c ≠ '-' := hoctets.forall_mem (by decide) fun f ds hf c hc he =>
    hf.not_mem.2.1 (he ▸ hc)
  exact fun h => hne _ h rfl

theorem Written.length_eq (h : Written cs ds) : ds.length = digitCount := by
  cases h with
  | dotted _ length_eq => exact length_eq
  | colons _ _ length_eq => exact length_eq
  | hyphens _ _ length_eq => exact length_eq

theorem isCanonical_normalizeChars :
    isCanonical (normalizeChars cs) = true ↔ ∃ ds, Written cs ds := by
  rw [isCanonical_iff]
  constructor
  · rintro ⟨ds, hlen, h⟩
    exact ⟨ds, (normalizeChars_iff_written hlen).1 h⟩
  · rintro ⟨ds, h⟩
    exact ⟨ds, h.length_eq, (normalizeChars_iff_written h.length_eq).2 h⟩

theorem not_written_nil : ¬ ∃ ds, Written [] ds := by
  rw [← isCanonical_normalizeChars]
  decide

theorem not_written_randomWord : ¬ ∃ ds, Written randomWord.toList ds := by
  rw [← isCanonical_normalizeChars]
  decide +kernel

theorem asksRandom_iff {s : String} : asksRandom s = true ↔ Text.strip s = randomWord := beq_iff_eq

theorem asksRandom_of_written {s : String} (h : Written (Text.strip s).toList ds) :
    asksRandom s = false := by
  rw [Bool.eq_false_iff, Ne, asksRandom_iff]
  intro hrandom
  rw [hrandom] at h
  exact not_written_randomWord ⟨ds, h⟩

/-- The digits that are drawn are read back from the text that they make. -/
theorem read_of_random {s : String} {digits : List (Fin 16)} (h : Text.strip s = randomWord)
    (hlen : digits.length = digitCount) :
    read digits s = .ok (String.ofList (ofDigits digits)) := by
  have hne : Text.strip s ≠ "" := by
    rw [h]
    decide
  have hnormal : normalize digits s = String.ofList (ofDigits digits) := by
    rw [normalize, if_pos (asksRandom_iff.2 h),
      (normalizeChars_iff_written hlen).2 (written_ofDigits hlen)]
  rw [read, if_neg hne, hnormal]
  exact if_pos (by rw [String.toList_ofList]; exact isCanonical_ofDigits hlen)

theorem read_of_written {s : String} (h : Written (Text.strip s).toList ds)
    (digits : List (Fin 16)) : read digits s = .ok (String.ofList (ofDigits ds)) := by
  have hne : Text.strip s ≠ "" := by
    intro he
    rw [he] at h
    exact not_written_nil ⟨ds, h⟩
  have hnormal : normalize digits s = String.ofList (ofDigits ds) := by
    rw [normalize, if_neg (by rw [asksRandom_of_written h]; exact Bool.false_ne_true),
      (normalizeChars_iff_written h.length_eq).2 h]
  rw [read, if_neg hne, hnormal]
  exact if_pos (by rw [String.toList_ofList]; exact isCanonical_ofDigits h.length_eq)

/-- A text that is neither blank nor written has too few octets, too many, or none. -/
theorem read_of_not_octets {s : String} (hrandom : Text.strip s ≠ randomWord)
    (hempty : Text.strip s ≠ "") (h : ¬ ∃ ds, Written (Text.strip s).toList ds)
    (digits : List (Fin 16)) : read digits s = .error .notSixOctets := by
  have hnormal : (normalize digits s).toList = normalizeChars (Text.strip s).toList := by
    rw [normalize, if_neg (asksRandom_iff.not.2 hrandom), String.toList_ofList]
  rw [read, if_neg hempty]
  exact if_neg (by rw [hnormal, isCanonical_normalizeChars]; exact h)

theorem read_of_not_written {s : String} (hrandom : Text.strip s ≠ randomWord)
    (h : ¬ ∃ ds, Written (Text.strip s).toList ds) (digits : List (Fin 16)) :
    ∃ fault, read digits s = .error fault := by
  by_cases hempty : Text.strip s = ""
  · exact ⟨.empty, if_pos hempty⟩
  · exact ⟨.notSixOctets, read_of_not_octets hrandom hempty h digits⟩

end Address

namespace Machine

open Address

variable {s a : String} {m m' : Machine} {ds : List (Fin 16)}

/-- The digits that the machine draws next. -/
def nextDigits (m : Machine) : List (Fin 16) :=
  (List.range digitCount).map fun i => m.host.digit (m.drawn + i)

theorem readAddress_of_random (h : Text.strip s = randomWord) (m : Machine) :
    readAddress s m = (.ok (String.ofList (ofDigits m.nextDigits)),
      { m with drawn := m.drawn + digitCount }) := by
  have hlen : m.nextDigits.length = digitCount := by
    rw [nextDigits, List.length_map, List.length_range]
  have hdigits : m.digitsOf s = m.nextDigits := if_pos (asksRandom_iff.2 h)
  rw [readAddress_apply, hdigits, read_of_random h hlen, drawnFor, if_pos (asksRandom_iff.2 h)]
  rfl

theorem readAddress_of_written (h : Written (Text.strip s).toList ds) (m : Machine) :
    readAddress s m = (.ok (String.ofList (ofDigits ds)), m) := by
  rw [readAddress_apply, read_of_written h, drawnFor, asksRandom_of_written h]
  rfl

theorem readAddress_of_not_written (hrandom : Text.strip s ≠ randomWord)
    (h : ¬ ∃ ds, Written (Text.strip s).toList ds) (m : Machine) :
    ∃ fault, readAddress s m = (.error (.invalidAddress s fault), m) := by
  obtain ⟨fault, hfault⟩ := read_of_not_written hrandom h (m.digitsOf s)
  refine ⟨fault, ?_⟩
  rw [readAddress_apply, hfault, drawnFor, if_neg (asksRandom_iff.not.2 hrandom)]
  rfl

/-- What is read is canonical. -/
theorem exists_digits_of_readAddress (h : readAddress s m = (.ok a, m')) :
    ∃ ds, ds.length = digitCount ∧ a.toList = ofDigits ds := by
  rw [readAddress_apply] at h
  have hread := congrArg Prod.fst h
  cases hr : read (m.digitsOf s) s with
  | error fault =>
    rw [hr] at hread
    exact nomatch hread
  | ok b =>
    rw [hr] at hread
    obtain rfl := Except.ok.inj hread
    exact isCanonical_iff.1 (isCanonical_of_read hr)

theorem strip_of_canonical (hlen : ds.length = digitCount) (h : a.toList = ofDigits ds) :
    Text.strip a = a := by
  have hplain : ∀ c ∈ ofDigits ds, Text.isBlank c = false := by
    refine ((eq_ofDigits_iff hlen).1 rfl).forall_mem (p := fun c => Text.isBlank c = false)
      (by decide) ?_
    intro f ds' hf c hc
    have hall : ∀ d : Fin 16, Text.isBlank (Text.hexDigit d) = false := by decide
    obtain ⟨a, b, x, y, rfl, -, rfl, rfl⟩ := digits_two_iff.1 hf
    rcases List.mem_pair.1 hc with rfl | rfl
    · exact hall x
    · exact hall y
  rw [Text.strip, h, Text.trim_of_not_blank hplain, ← h, String.ofList_toList]

theorem readAddress_of_canonical (hlen : ds.length = digitCount) (h : a.toList = ofDigits ds)
    (m : Machine) : readAddress a m = (.ok a, m) := by
  have hwritten : Written (Text.strip a).toList ds := by
    rw [strip_of_canonical hlen h, h]
    exact written_ofDigits hlen
  rw [readAddress_of_written hwritten, ← h, String.ofList_toList]

/-- **Reading an address** accepts what asks for a random one and what is written in one of the
notations, and nothing else. It draws digits only when asked to. What it gives is canonical, and is
read as itself. -/
theorem readAddress_grammar (s : String) (m : Machine) :
    (Text.strip s = randomWord →
      readAddress s m = (.ok (String.ofList (ofDigits m.nextDigits)),
        { m with drawn := m.drawn + digitCount })) ∧
    (∀ ds, Text.strip s ≠ randomWord → Written (Text.strip s).toList ds →
      readAddress s m = (.ok (String.ofList (ofDigits ds)), m)) ∧
    (Text.strip s ≠ randomWord → (¬ ∃ ds, Written (Text.strip s).toList ds) →
      ∃ fault, readAddress s m = (.error (.invalidAddress s fault), m)) ∧
    ∀ a m', readAddress s m = (.ok a, m') →
      (∃ ds, ds.length = digitCount ∧ a.toList = ofDigits ds) ∧
        ∀ n, readAddress a n = (.ok a, n) := by
  refine ⟨fun h => readAddress_of_random h m, fun ds _ h => readAddress_of_written h m,
    fun hrandom h => readAddress_of_not_written hrandom h m, ?_⟩
  intro a m' h
  obtain ⟨ds, hlen, ha⟩ := exists_digits_of_readAddress h
  exact ⟨⟨ds, hlen, ha⟩, readAddress_of_canonical hlen ha⟩

end Machine

end LinkOverride
