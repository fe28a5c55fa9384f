import LinkOverride.Address
import LinkOverride.Proofs.Separated

/-!
# Canonical addresses

The canonical texts are those of twelve digits. A text is brought to lower case before it is checked,
so what is accepted is decided in lower case; but no character beyond `f` becomes a digit or a colon
there, whatever stands around it. So what becomes canonical is octets between colons, in whatever
case, and nothing else.
-/

namespace LinkOverride

/-! ## Lower case -/

namespace Text

theorem toNat_ofNat {n : Nat} (h : n.isValidChar) : (Char.ofNat n).toNat = n := by
  rw [Char.ofNat, dif_pos h]
  rfl

/-- Every run but that of the letters of ASCII goes to characters beyond `f`. -/
theorem lowerRuns_cases : ∀ r ∈ lowerRuns,
    r = (65, 90, 1, 97) ∨ 102 < r.2.2.2 ∧
      (r.2.2.2 + (r.2.1 - r.1) < 0xD800 ∨
        0xDFFF < r.2.2.2 ∧ r.2.2.2 + (r.2.1 - r.1) < 0x110000) := by
  decide +kernel

/-- **What becomes a digit or a colon** is a capital letter of ASCII, or the same in lower case. -/
theorem lowerOne_cases {c : Char} (h : (lowerOne c).toNat ≤ 102) :
    lowerOne c = c ∨ ∃ n < 26, c = Char.ofNat (65 + n) ∧ lowerOne c = Char.ofNat (97 + n) := by
  rw [lowerOne] at h ⊢
  split
  · next r hr =>
    rw [hr] at h
    have hin := List.find?_some hr
    simp only [Bool.and_eq_true, decide_eq_true_eq] at hin
    obtain ⟨⟨hfirst, hlast⟩, -⟩ := hin
    rcases lowerRuns_cases r (List.mem_of_find?_eq_some hr) with rfl | ⟨hbeyond, hvalid⟩
    · dsimp only at hfirst hlast
      refine .inr ⟨c.toNat - 65, by omega, ?_, rfl⟩
      rw [Nat.add_sub_cancel' hfirst, Char.ofNat_toNat]
    · have hchar : (r.2.2.2 + (c.toNat - r.1)).isValidChar := by
        rw [Nat.isValidChar]
        omega
      rw [toNat_ofNat hchar] at h
      omega
  · exact .inl rfl

/-- Lower case of ASCII comes from each character alone. -/
theorem lowerFrom_eq_iff {ys : List Char} (h : ∀ y ∈ ys, y.toNat ≤ 102) (seen xs : List Char) :
    lowerFrom seen xs = ys ↔ xs.map lowerOne = ys := by
  induction xs generalizing seen ys with
  | nil => rfl
  | cons c xs ih =>
    have hsigma : ('Σ' : Char) ≠ 'İ' := by decide
    by_cases h1 : c = 'Σ'
    · have hbeyond : ∀ y ∈ ys.head?, y ≠ 'σ' ∧ y ≠ 'ς' := by
        intro y hy
        have hle := h y (List.mem_of_mem_head? hy)
        constructor
        · rintro rfl
          exact absurd hle (by decide)
        · rintro rfl
          exact absurd hle (by decide)
      have himage : lowerOne 'Σ' = 'σ' := by decide
      subst h1
      rw [lowerFrom, List.map_cons, himage]
      constructor
      · intro hys
        rw [← hys] at hbeyond
        split at hbeyond
        · split at hbeyond
          · exact absurd rfl (hbeyond _ rfl).2
          · exact absurd rfl (hbeyond _ rfl).1
        · next hne => exact absurd rfl hne
      · rintro rfl
        exact absurd rfl (hbeyond _ rfl).1
    by_cases h2 : c = 'İ'
    · subst h2
      have himage : lowerOne 'İ' = 'İ' := by decide
      rw [lowerFrom, List.map_cons, himage, if_neg h1, if_pos rfl]
      constructor
      · intro hys
        rw [← hys] at h
        exact absurd (h '\u0307' (by simp)) (by decide)
      · rintro rfl
        exact absurd (h 'İ' List.mem_cons_self) (by decide)
    · rw [lowerFrom_cons_of_ne _ _ h1 h2, List.map_cons]
      cases ys with
      | nil => simp
      | cons y ys =>
        rw [List.cons.injEq, List.cons.injEq, ih fun y hy => h y (List.mem_cons_of_mem _ hy)]

end Text

namespace Address

open Text (Separated hexDigit lowerOne separated_iff exists_forall₂_iff)

/-! ## Digits -/

/-- A digit in lower case or in upper case. -/
def Spells (c : Char) (d : Fin 16) : Prop := c = hexDigit d ∨ c = (hexDigit d).toUpper

instance (c : Char) (d : Fin 16) : Decidable (Spells c d) := inferInstanceAs (Decidable (_ ∨ _))

theorem toNat_hexDigit_le (d : Fin 16) : (hexDigit d).toNat ≤ 102 := by
  revert d
  decide

theorem hexDigit_ne_colon (d : Fin 16) : hexDigit d ≠ ':' := by
  revert d
  decide

/-- The digits are those characters whose lower case is a digit. -/
theorem lowerOne_eq_hexDigit {c : Char} {d : Fin 16} : lowerOne c = hexDigit d ↔ Spells c d := by
  constructor
  · intro h
    have hcapital : ∀ (e : Fin 16), ∀ n < 26, Char.ofNat (97 + n) = hexDigit e →
        Char.ofNat (65 + n) = (hexDigit e).toUpper := by decide
    rcases Text.lowerOne_cases (c := c) (by rw [h]; exact toNat_hexDigit_le d) with
      hself | ⟨n, hn, rfl, himage⟩
    · exact .inl (hself.symm.trans h)
    · exact .inr (hcapital d n hn (himage.symm.trans h))
  · have hlower : ∀ e : Fin 16,
        lowerOne (hexDigit e) = hexDigit e ∧ lowerOne (hexDigit e).toUpper = hexDigit e := by
      decide
    rintro (rfl | rfl)
    · exact (hlower d).1
    · exact (hlower d).2

theorem Spells.unique {c : Char} {d e : Fin 16} (h : Spells c d) (h' : Spells c e) : d = e := by
  have hinj : ∀ d e : Fin 16, hexDigit d = hexDigit e → d = e := by decide
  exact hinj d e ((lowerOne_eq_hexDigit.2 h).symm.trans (lowerOne_eq_hexDigit.2 h'))

theorem lowerOne_eq_colon {c : Char} : lowerOne c = ':' ↔ c = ':' := by
  constructor
  · intro h
    rcases Text.lowerOne_cases (c := c) (by rw [h]; decide) with hself | ⟨n, hn, -, himage⟩
    · exact hself.symm.trans h
    · have hletter : ∀ n < 26, Char.ofNat (97 + n) ≠ ':' := by decide
      exact absurd (himage.symm.trans h) (hletter n hn)
  · rintro rfl
    decide

theorem toNat_le_of_isHex {c : Char} (h : isHex c = true) : c.toNat ≤ 102 := by
  simp only [isHex, Char.isDigit, Bool.or_eq_true, Bool.and_eq_true, decide_eq_true_eq,
    Char.le_def, ge_iff_le, UInt32.le_iff_toNat_le] at h
  rcases h with (⟨-, h⟩ | ⟨-, h⟩) | ⟨-, h⟩
  · exact Nat.le_trans h (by decide)
  · exact h
  · exact Nat.le_trans h (by decide)

theorem isHex_iff {c : Char} : isHex c = true ↔ ∃ d, Spells c d := by
  constructor
  · intro h
    have hall : ∀ n < 103, isHex (Char.ofNat n) = true → ∃ d, Spells (Char.ofNat n) d := by
      decide +kernel
    have hc := hall c.toNat (Nat.lt_succ_of_le (toNat_le_of_isHex h))
    rw [Char.ofNat_toNat] at hc
    exact hc h
  · have hall : ∀ d : Fin 16,
        isHex (hexDigit d) = true ∧ isHex (hexDigit d).toUpper = true := by decide
    rintro ⟨d, rfl | rfl⟩
    · exact (hall d).1
    · exact (hall d).2

theorem isLowerHex_iff {c : Char} : isLowerHex c = true ↔ ∃ d : Fin 16, c = hexDigit d := by
  constructor
  · intro h
    have hall : ∀ n < 103, isLowerHex (Char.ofNat n) = true →
        ∃ d : Fin 16, Char.ofNat n = hexDigit d := by
      decide +kernel
    have hc := hall c.toNat
      (Nat.lt_succ_of_le (toNat_le_of_isHex (isHex_of_isLowerHex h)))
    rw [Char.ofNat_toNat] at hc
    exact hc h
  · rintro ⟨d, rfl⟩
    exact isLowerHex_hexDigit d

/-- A digit is none of the characters that stand between digits. -/
theorem Spells.ne {c : Char} {d : Fin 16} (h : Spells c d) : c ≠ ':' ∧ c ≠ '-' ∧ c ≠ '.' := by
  have hall : ∀ e : Fin 16,
      (hexDigit e ≠ ':' ∧ hexDigit e ≠ '-' ∧ hexDigit e ≠ '.') ∧
      (hexDigit e).toUpper ≠ ':' ∧ (hexDigit e).toUpper ≠ '-' ∧ (hexDigit e).toUpper ≠ '.' := by
    decide
  rcases h with rfl | rfl
  · exact (hall d).1
  · exact (hall d).2

/-! ## Octets -/

/-- `n` characters, each of which stands for a digit. -/
def Digits (S : Char → Fin 16 → Prop) (n : Nat) (cs : List Char) (ds : List (Fin 16)) : Prop :=
  cs.length = n ∧ List.Forall₂ S cs ds

section Octets

variable {S : Char → Fin 16 → Prop} {cs : List Char} {ds : List (Fin 16)}

theorem digits_one_iff : Digits S 1 cs ds ↔ ∃ a x, cs = [a] ∧ ds = [x] ∧ S a x := by
  constructor
  · rintro ⟨hlen, h⟩
    obtain ⟨a, rfl⟩ := List.length_eq_one_iff.1 hlen
    obtain ⟨x, xs, hx, hnil, rfl⟩ := List.forall₂_cons_left_iff.1 h
    obtain rfl := List.forall₂_nil_left_iff.1 hnil
    exact ⟨a, x, rfl, rfl, hx⟩
  · rintro ⟨a, x, rfl, rfl, hx⟩
    exact ⟨rfl, .cons hx .nil⟩

theorem digits_two_iff :
    Digits S 2 cs ds ↔ ∃ a b x y, cs = [a, b] ∧ ds = [x, y] ∧ S a x ∧ S b y := by
  constructor
  · rintro ⟨hlen, h⟩
    obtain ⟨a, b, rfl⟩ := List.length_eq_two.1 hlen
    obtain ⟨x, xs, hx, hrest, rfl⟩ := List.forall₂_cons_left_iff.1 h
    obtain ⟨b', y, hb, rfl, hy⟩ := digits_one_iff.1 ⟨rfl, hrest⟩
    obtain rfl := List.singleton_inj.1 hb
    exact ⟨a, b, x, y, rfl, rfl, hx, hy⟩
  · rintro ⟨a, b, x, y, rfl, rfl, hx, hy⟩
    exact ⟨rfl, .cons hx (.cons hy .nil)⟩

theorem Digits.length_eq {n : Nat} (h : Digits S n cs ds) : ds.length = n :=
  h.2.length_eq.symm.trans h.1

theorem ofDigits_pair (x y : Fin 16) : ofDigits [x, y] = [hexDigit x, hexDigit y] := rfl

theorem ofDigits_cons_cons (x y z w : Fin 16) (ds : List (Fin 16)) :
    ofDigits (x :: y :: z :: w :: ds) =
      hexDigit x :: hexDigit y :: ':' :: ofDigits (z :: w :: ds) := rfl

theorem exists_of_separated_octets {sep : Char} (h : Separated sep (Digits S 2) cs ds) :
    ∃ x y es, ds = x :: y :: es := by
  cases h with
  | last field =>
    obtain ⟨a, b, x, y, -, rfl, -, -⟩ := digits_two_iff.1 field
    exact ⟨x, y, [], rfl⟩
  | cons field _ =>
    obtain ⟨a, b, x, y, -, rfl, -, -⟩ := digits_two_iff.1 field
    exact ⟨x, y, _, rfl⟩

theorem two_le_length_of_separated {sep : Char} (h : Separated sep (Digits S 2) cs ds) :
    2 ≤ cs.length := by
  cases h with
  | last field => exact Nat.le_of_eq field.1.symm
  | cons field _ =>
    rw [List.length_append, field.1]
    exact Nat.le_add_right _ _

/-- **What becomes canonical.** A map of characters that gives a digit for what stands for it, and
a colon for the colon alone, makes canonical octets out of octets and of nothing else. -/
theorem map_eq_ofDigits_iff {g : Char → Char} (hdigit : ∀ c (d : Fin 16), g c = hexDigit d ↔ S c d)
    (hcolon : ∀ c, g c = ':' ↔ c = ':') {n : Nat} (hlen : ds.length = 2 * n + 2) :
    cs.map g = ofDigits ds ↔ Separated ':' (Digits S 2) cs ds := by
  constructor
  · intro h
    induction n generalizing cs ds with
    | zero =>
      obtain ⟨x, y, rfl⟩ := List.length_eq_two.1 hlen
      rw [ofDigits_pair] at h
      obtain ⟨a, as, rfl, ha, h⟩ := List.map_eq_cons_iff.1 h
      obtain ⟨b, bs, rfl, hb, h⟩ := List.map_eq_cons_iff.1 h
      obtain rfl := List.map_eq_nil_iff.1 h
      exact .last (digits_two_iff.2 ⟨a, b, x, y, rfl, rfl, (hdigit _ _).1 ha, (hdigit _ _).1 hb⟩)
    | succ n ih =>
      obtain ⟨x, y, z, w, es, rfl⟩ : ∃ x y z w es, ds = x :: y :: z :: w :: es := by
        match ds, hlen with
        | x :: y :: z :: w :: es, _ => exact ⟨x, y, z, w, es, rfl⟩
      rw [ofDigits_cons_cons] at h
      obtain ⟨a, as, rfl, ha, h⟩ := List.map_eq_cons_iff.1 h
      obtain ⟨b, bs, rfl, hb, h⟩ := List.map_eq_cons_iff.1 h
      obtain ⟨c, cs, rfl, hc, hcs⟩ := List.map_eq_cons_iff.1 h
      obtain rfl := (hcolon c).1 hc
      have hoctet : Digits S 2 [a, b] [x, y] :=
        digits_two_iff.2 ⟨a, b, x, y, rfl, rfl, (hdigit _ _).1 ha, (hdigit _ _).1 hb⟩
      have hlen' : (z :: w :: es).length = 2 * n + 2 := by
        simp only [List.length_cons] at hlen ⊢
        omega
      exact .cons hoctet (ih hlen' hcs)
  · intro h
    clear hlen
    induction h with
    | last field =>
      obtain ⟨a, b, x, y, rfl, rfl, hx, hy⟩ := digits_two_iff.1 field
      rw [ofDigits_pair, List.map_cons, List.map_cons, (hdigit a x).2 hx, (hdigit b y).2 hy,
        List.map_nil]
    | cons field rest ih =>
      obtain ⟨a, b, x, y, rfl, rfl, hx, hy⟩ := digits_two_iff.1 field
      obtain ⟨z, w, es, rfl⟩ := exists_of_separated_octets rest
      simp only [List.cons_append, List.nil_append, ofDigits_cons_cons, List.map_cons,
        (hdigit a x).2 hx, (hdigit b y).2 hy, (hcolon ':').2 rfl, ih]

end Octets

/-! ## Canonical form -/

theorem isOctet_iff {f : List Char} :
    isOctet f = true ↔ ∃ ds, Digits (fun c d => c = hexDigit d) 2 f ds := by
  simp only [digits_two_iff]
  constructor
  · intro h
    match f, h with
    | [a, b], h =>
      rw [isOctet, Bool.and_eq_true] at h
      obtain ⟨x, hx⟩ := isLowerHex_iff.1 h.1
      obtain ⟨y, hy⟩ := isLowerHex_iff.1 h.2
      exact ⟨[x, y], a, b, x, y, rfl, rfl, hx, hy⟩
  · rintro ⟨-, a, b, x, y, rfl, -, rfl, rfl⟩
    rw [isOctet, isLowerHex_hexDigit, isLowerHex_hexDigit, Bool.and_self]

theorem flatten_length_of_digits {S : Char → Fin 16 → Prop} {n : Nat} {fs : List (List Char)}
    {dss : List (List (Fin 16))} (h : List.Forall₂ (Digits S n) fs dss) :
    dss.flatten.length = n * fs.length := by
  induction h with
  | nil => rfl
  | cons field _ ih =>
    rw [List.flatten_cons, List.length_append, ih, field.length_eq, List.length_cons,
      Nat.mul_succ, Nat.add_comm]

/-- The text of some digits has their octets, in lower case. -/
theorem eq_ofDigits_iff {cs : List Char} {ds : List (Fin 16)} (hlen : ds.length = digitCount) :
    cs = ofDigits ds ↔ Separated ':' (Digits (fun c d => c = hexDigit d) 2) cs ds := by
  have h : cs.map id = ofDigits ds ↔ Separated ':' (Digits (fun c d => c = hexDigit d) 2) cs ds :=
    map_eq_ofDigits_iff (fun _ _ => Iff.rfl) (fun _ => Iff.rfl) (n := 5) hlen
  rwa [List.map_id] at h

/-- **The canonical texts** are those of twelve digits. -/
theorem isCanonical_iff {cs : List Char} :
    isCanonical cs = true ↔ ∃ ds : List (Fin 16), ds.length = digitCount ∧ cs = ofDigits ds := by
  have hsep : ∀ f ds, Digits (fun c d => c = hexDigit d) 2 f ds → ':' ∉ f := by
    intro f ds h
    obtain ⟨a, b, x, y, rfl, -, rfl, rfl⟩ := digits_two_iff.1 h
    have hx := hexDigit_ne_colon x
    have hy := hexDigit_ne_colon y
    simp [hx.symm, hy.symm]
  simp only [isCanonical, Bool.and_eq_true, beq_iff_eq, List.all_eq_true]
  simp only [isOctet_iff, ← exists_forall₂_iff]
  constructor
  · rintro ⟨hsix, dss, hdss⟩
    have hlen : dss.flatten.length = digitCount := by
      rw [flatten_length_of_digits hdss, hsix]
      rfl
    exact ⟨dss.flatten, hlen,
      (eq_ofDigits_iff hlen).2 ((separated_iff hsep).2 ⟨dss, hdss, rfl⟩)⟩
  · rintro ⟨ds, hlen, hcs⟩
    obtain ⟨dss, hdss, rfl⟩ := (separated_iff hsep).1 ((eq_ofDigits_iff hlen).1 hcs)
    rw [flatten_length_of_digits hdss] at hlen
    exact ⟨by rw [digitCount] at hlen; omega, dss, hdss⟩

theorem isCanonical_ofDigits {ds : List (Fin 16)} (h : ds.length = digitCount) :
    isCanonical (ofDigits ds) = true :=
  isCanonical_iff.2 ⟨ds, h, rfl⟩

/-- What becomes canonical in lower case is octets, in whatever case. -/
theorem lowerChars_eq_ofDigits {cs : List Char} {ds : List (Fin 16)}
    (hlen : ds.length = digitCount) :
    Text.lowerChars cs = ofDigits ds ↔ Separated ':' (Digits Spells 2) cs ds := by
  have hascii : ∀ y ∈ ofDigits ds, y.toNat ≤ 102 := by
    refine ((eq_ofDigits_iff hlen).1 rfl).forall_mem (p := fun c => c.toNat ≤ 102) (by decide) ?_
    intro f ds' hf c hc
    obtain ⟨a, b, x, y, rfl, -, rfl, rfl⟩ := digits_two_iff.1 hf
    rcases List.mem_pair.1 hc with rfl | rfl
    · exact toNat_hexDigit_le x
    · exact toNat_hexDigit_le y
  rw [Text.lowerChars, Text.lowerFrom_eq_iff hascii]
  exact map_eq_ofDigits_iff (fun _ _ => lowerOne_eq_hexDigit) (fun _ => lowerOne_eq_colon)
    (n := 5) hlen

end Address

end LinkOverride
