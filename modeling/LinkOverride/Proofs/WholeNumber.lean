import LinkOverride.Decimal.Reading
import Mathlib

/-!
# Doubles of whole numbers

The double nearest to a whole number is zero only for zero itself. A number other than zero has its
first digit at 2⁰ or above, so it is rounded to the full 53 digits, and nothing of it is lost below
the smallest exponent. A number in this form keeps it when it is rounded, packed into bits and
unpacked, when its sign is changed, and under the multiplication by one that is part of reading it.
-/

namespace LinkOverride.Decimal

open Float.Model (UnpackedFloat totalExponent)
open Float.Model.Format (binary64)
open Float.Model.UnpackedFloat

/-- A number of 53 binary digits whose last digit stands at `2 ^ lo` or above, or infinity. -/
inductive Full (lo : Int) : UnpackedFloat → Prop
  | infinity (s : Sign) : Full lo (.infinity s)
  | finite (s : Sign) {m : Nat} {e : Int} (hpos : 0 < m) (hdigits : m.log2 = 52) (hlast : lo ≤ e) :
    Full lo (.finite s m e hpos)

theorem Full.mono {lo lo' : Int} {u : UnpackedFloat} (h : Full lo u) (hle : lo' ≤ lo) :
    Full lo' u := by
  cases h with
  | infinity s => exact .infinity s
  | finite s hpos hdigits hlast => exact .finite s hpos hdigits (Int.le_trans hle hlast)

/-! ## Rounding -/

/-- What is left of a number when the digits behind the first 53 are cut off. -/
theorem log2_cut {m : Nat} (h : 52 ≤ m.log2) : (m / 2 ^ (m.log2 - 52)).log2 = 52 := by
  have hm : m ≠ 0 := by
    rintro rfl
    exact absurd h (by decide)
  have hsplit : 2 ^ m.log2 = 2 ^ 52 * 2 ^ (m.log2 - 52) := by
    rw [← Nat.pow_add, Nat.add_sub_cancel' h]
  have hlow : 2 ^ 52 * 2 ^ (m.log2 - 52) ≤ m := hsplit ▸ Nat.log2_self_le hm
  have hhigh : m < 2 ^ 53 * 2 ^ (m.log2 - 52) := by
    have hlt : m < 2 ^ (m.log2 + 1) := Nat.lt_log2_self
    rw [Nat.pow_succ, hsplit] at hlt
    omega
  have hpos : 0 < 2 ^ (m.log2 - 52) := Nat.two_pow_pos _
  have hfloor : 2 ^ 52 ≤ m / 2 ^ (m.log2 - 52) := (Nat.le_div_iff_mul_le hpos).2 hlow
  exact (Nat.log2_eq_iff (by omega)).2 ⟨hfloor, (Nat.div_lt_iff_lt_mul hpos).2 hhigh⟩

theorem mantissa_shiftRight (em : ExtendedMantissa) (n : Nat) :
    (em >>> n).mantissa = em.mantissa / 2 ^ n := by
  induction n with
  | zero =>
    rw [Nat.pow_zero, Nat.div_one]
    rfl
  | succ n ih =>
    show (em >>> n).mantissa / 2 = _
    rw [ih, Nat.div_div_eq_div_mul, Nat.pow_succ]

/-- Rounding takes nothing away from the digits that have not been cut off. -/
theorem mantissa_le_rounded (em : ExtendedMantissa) : em.mantissa ≤ em.roundedMantissa := by
  rw [ExtendedMantissa.roundedMantissa]
  rcases em.accuracy with _ | (_ | _ | _)
  · exact Nat.le_refl _
  · exact Nat.le_refl _
  · exact Nat.le_add_right _ _
  · exact Nat.le_add_right _ _

/-- A number with a mantissa. -/
def exactly (m : Nat) : ExtendedMantissa := ⟨m, false, false⟩

/-- A number that has digits enough is cut to 53 of them. -/
theorem shiftToTargetExponent_eq {m : Nat} {e : Int} (hm : 52 ≤ m.log2) (he : -1074 ≤ e) :
    shiftToTargetExponent binary64 m e .exact =
      (exactly m >>> (m.log2 - 52), e + (m.log2 - 52 : Nat)) := by
  have htarget : binary64.targetExponent (totalExponent m e) = e + (m.log2 - 52 : Nat) := by
    rw [Float.Model.Format.targetExponent, totalExponent,
      show binary64.mantissaBits = 53 from rfl, show binary64.minExponent = -1074 from rfl]
    omega
  have hshift : (e + (m.log2 - 52 : Nat) - e).toNat = m.log2 - 52 := by omega
  show (exactly m >>> (binary64.targetExponent (totalExponent m e) - e).toNat,
    e + ((binary64.targetExponent (totalExponent m e) - e).toNat : Int)) = _
  rw [htarget, hshift]

theorem log2_mantissa_cut {m : Nat} (h : 52 ≤ m.log2) :
    (exactly m >>> (m.log2 - 52)).mantissa.log2 = 52 := by
  rw [mantissa_shiftRight]
  exact log2_cut h

theorem le_log2_rounded {em : ExtendedMantissa} (h : em.mantissa.log2 = 52) :
    52 ≤ em.roundedMantissa.log2 := by
  have hle := mantissa_le_rounded em
  have hpos : em.mantissa ≠ 0 := by
    intro hzero
    rw [hzero] at h
    exact absurd h (by decide)
  rw [Nat.le_log2 (by omega)]
  exact Nat.le_trans (h ▸ Nat.log2_self_le hpos) hle

/-- **Rounding** a number that has digits enough leaves it full. -/
theorem full_round {m : Nat} {e lo : Int} (s : Sign) (hm : 52 ≤ m.log2) (he : lo ≤ e)
    (hlo : -1074 ≤ lo) : Full lo (roundWithAccuracy binary64 s m e .exact) := by
  have hrounded := le_log2_rounded (log2_mantissa_cut hm)
  have hfinal := log2_mantissa_cut hrounded
  rw [roundWithAccuracy, shiftToTargetExponent_eq hm (Int.le_trans hlo he)]
  dsimp only
  rw [shiftToTargetExponent_eq hrounded (by omega)]
  dsimp only
  split
  · next hzero =>
    rw [hzero] at hfinal
    exact absurd hfinal (by decide)
  · exact .finite s _ hfinal (by omega)

/-! ## Packing -/

theorem full_unpack_infinity (lo : Int) (s : Sign) :
    Full lo (unpack binary64 (packedInfinity binary64 s)) := by
  cases s with
  | negative => exact .infinity .negative
  | positive => exact .infinity .positive

/-- The leading digit is left out of the bits, and put back in front of the others. -/
theorem log2_append_one (m : BitVec 52) : ((1#1 ++ m).toNat).log2 = 52 := by
  have hvalue : (1#1 ++ m).toNat = 2 ^ 52 + m.toNat := by
    rw [BitVec.toNat_append, ← Nat.shiftLeft_add_eq_or_of_lt m.isLt]
    rfl
  have hlt : m.toNat < 2 ^ 52 := m.isLt
  rw [hvalue, Nat.log2_eq_iff (by omega)]
  omega

/-- The exponent of a full number, as it stands in the bits, is neither of the two that mark other
numbers. -/
theorem full_unpack_normal {lo e : Int} (s : Sign) (m : BitVec 52) (hlo : -1074 ≤ lo)
    (he : lo ≤ e) (hbound : (e + 1075).toNat + 1 < 2048) :
    Full lo (unpack binary64
      (packComponents binary64 s (BitVec.ofNat 11 (e + 1075).toNat) m)) := by
  have hexponent : (BitVec.ofNat 11 (e + 1075).toNat).toNat = (e + 1075).toNat := by
    rw [BitVec.toNat_ofNat]
    exact Nat.mod_eq_of_lt (by omega)
  have hnotTop : BitVec.ofNat 11 (e + 1075).toNat ≠ -1#11 := by
    intro h
    have htop : (e + 1075).toNat = 2047 := hexponent.symm.trans (congrArg BitVec.toNat h)
    omega
  have hnotZero : BitVec.ofNat 11 (e + 1075).toNat ≠ 0#11 := by
    intro h
    have hzero : (e + 1075).toNat = 0 := hexponent.symm.trans (congrArg BitVec.toNat h)
    omega
  rw [unpack]
  simp only [unpackExponent_packComponents, unpackMantissa_packComponents]
  rw [if_neg hnotTop, if_neg hnotZero, hexponent]
  have hlast : lo ≤ ((e + 1075).toNat : Int) - 1075 := by omega
  exact .finite _ _ (log2_append_one m) hlast

/-- **Packing and unpacking** keeps a number full. -/
theorem full_unpack_pack {lo : Int} {u : UnpackedFloat} (h : Full lo u) (hlo : -1074 ≤ lo) :
    Full lo (unpack binary64 (pack binary64 u)) := by
  cases h with
  | infinity s => exact full_unpack_infinity lo s
  | @finite s m e hm hdigits he =>
    have hbiased : (e + binary64.exponentBias + binary64.mantissaBitsWithoutImplicit).toNat =
        (e + 1075).toNat := by
      show (e + 1023 + 52).toNat = _
      omega
    rw [pack]
    dsimp only
    rw [hbiased]
    split
    · exact full_unpack_infinity lo s
    · next hbound =>
      rw [if_pos (show m.log2 + 1 = binary64.mantissaBits by rw [hdigits]; rfl)]
      refine full_unpack_normal s (BitVec.ofNat 52 m) hlo he ?_
      change ¬2048 ≤ (e + 1075).toNat + 1 at hbound
      omega

/-! ## Whole numbers -/

/-- A double that is full. -/
def IsFull (lo : Int) (f : Float) : Prop := Full lo f.toModel.unpack

theorem isFull_pack {lo : Int} {u : UnpackedFloat} (h : Full lo u) (hlo : -1074 ≤ lo) :
    IsFull lo (.ofModel (.pack u)) := full_unpack_pack h hlo

theorem isFull_infinity (lo : Int) : IsFull lo (1.0 / 0.0) := by
  have hunpack : (1.0 / 0.0 : Float).toModel.unpack = .infinity .positive := rfl
  rw [IsFull, hunpack]
  exact .infinity .positive

/-- **A full number is not zero.** -/
theorem IsFull.not_zero {lo : Int} {f : Float} (h : IsFull lo f) : (f == 0.0) = false := by
  have hzero : (0.0 : Float).toModel.unpack = .zero .positive := rfl
  show f.toModel.unpack.beq (0.0 : Float).toModel.unpack = false
  rw [hzero]
  rw [IsFull] at h
  generalize f.toModel.unpack = u at h
  cases h with
  | infinity s => cases s <;> rfl
  | finite s hpos hdigits hlast => cases s <;> rfl

theorem IsFull.neg {lo : Int} {f : Float} (h : IsFull lo f) (hlo : -1074 ≤ lo) :
    IsFull lo (-f) := by
  have hneg : Full lo f.toModel.unpack.neg := by
    rw [IsFull] at h
    generalize f.toModel.unpack = u at h
    cases h with
    | infinity s => exact .infinity _
    | finite s hpos hdigits hlast => exact .finite _ hpos hdigits hlast
  exact isFull_pack hneg hlo

theorem le_log2_shiftLeft {m : Nat} (n : Nat) (hm : m ≠ 0) : m.log2 + n ≤ (m <<< n).log2 := by
  have hpos : m <<< n ≠ 0 := by
    rw [Nat.shiftLeft_eq]
    exact Nat.mul_ne_zero hm (Nat.ne_of_gt (Nat.two_pow_pos n))
  rw [Nat.le_log2 hpos, Nat.shiftLeft_eq, Nat.pow_add]
  exact Nat.mul_le_mul_right _ (Nat.log2_self_le hm)

/-- A whole number below `2 ^ 53` as a double. -/
theorem isFull_toFloat {n : Nat} (hn : n ≠ 0) (hlt : n < 2 ^ 53) :
    IsFull (-52) n.toUInt64.toFloat := by
  have hvalue : n.toUInt64.toNat = n := by
    show n % 2 ^ 64 = n
    omega
  have hlog : n.log2 ≤ 52 := by
    have hlog : n.log2 < 53 := (Nat.log2_lt hn).2 hlt
    omega
  have hlow := le_log2_shiftLeft (52 - n.log2) hn
  have htarget : binary64.targetExponent (totalExponent n 0) = -((52 - n.log2 : Nat) : Int) := by
    rw [Float.Model.Format.targetExponent, totalExponent,
      show binary64.mantissaBits = 53 from rfl, show binary64.minExponent = -1074 from rfl]
    omega
  have hround : UnpackedFloat.ofUInt64 binary64 n.toUInt64 =
      roundWithAccuracy binary64 .positive (n <<< (52 - n.log2)) (-((52 - n.log2 : Nat) : Int))
        .exact := by
    have hcompare : compare (n : Int) 0 = .gt := by
      rw [Int.compare_eq_gt]
      omega
    rw [UnpackedFloat.ofUInt64, hvalue, UnpackedFloat.ofNat, UnpackedFloat.ofInt,
      UnpackedFloat.normalize, hcompare]
    dsimp only
    rw [UnpackedFloat.round, Int.toNat_natCast, htarget, decreaseExponent]
    dsimp only
    rw [show ((0 : Int) - -((52 - n.log2 : Nat) : Int)).toNat = 52 - n.log2 by omega, Int.zero_sub]
  have hfull : Full (-52) (UnpackedFloat.ofUInt64 binary64 n.toUInt64) := by
    rw [hround]
    exact full_round _ (by omega) (by omega) (by decide)
  exact isFull_pack hfull (by decide)

/-- Multiplication by one. -/
theorem IsFull.mul_one {lo : Int} {f : Float} (h : IsFull lo f) (hlo : -1022 ≤ lo) :
    IsFull (lo - 52) (f * .ofBits 0x3FF0000000000000) := by
  have hone : (Float.ofBits 0x3FF0000000000000).toModel.unpack =
      .finite .positive (2 ^ 52) (-52) (by decide) := rfl
  have hmul : Full (lo - 52) (UnpackedFloat.mul binary64 f.toModel.unpack
      (Float.ofBits 0x3FF0000000000000).toModel.unpack) := by
    rw [hone]
    rw [IsFull] at h
    generalize f.toModel.unpack = u at h
    cases h with
    | infinity s => exact .infinity _
    | @finite s m e hpos hdigits hlast =>
      have hlow := le_log2_shiftLeft 52 (Nat.ne_of_gt hpos)
      rw [Nat.shiftLeft_eq] at hlow
      rw [UnpackedFloat.mul]
      exact full_round _ (Nat.le_trans (Nat.le_add_left _ _) hlow) (by omega) (by omega)
  exact isFull_pack hmul (by omega)

theorem ofScientific_eq {n : Nat} (hn : n ≠ 0) :
    UnpackedFloat.ofScientific binary64 n 0 =
      roundWithAccuracy binary64 .positive (n <<< 53 * 1) (-53) .exact := by
  have hrange : ¬(0 : Int) < -((2 ^ binary64.exponentBits : Int) + n.log2) := by
    rw [show binary64.exponentBits = 11 from rfl]
    omega
  rw [UnpackedFloat.ofScientific, dif_neg hn, if_neg (by decide), if_neg hrange,
    if_pos (Int.le_refl 0), UnpackedFloat.mul]
  rfl

/-- A whole number of any size, by way of the model of doubles. -/
theorem isFull_ofScientific {n : Nat} (hn : n ≠ 0) :
    IsFull (-53) (.ofModel (Float.Model.ofScientific n 0)) := by
  have hlow := le_log2_shiftLeft 53 hn
  have hdigits : 52 ≤ (n <<< 53 * 1).log2 := by
    rw [Nat.mul_one]
    omega
  rw [Float.Model.ofScientific, ofScientific_eq hn]
  exact isFull_pack (full_round .positive hdigits (Int.le_refl (-53)) (by decide)) (by decide)

/-- A whole number other than zero, read in either of the two ways. -/
theorem isFull_nearest {n : Nat} (hn : n ≠ 0) : IsFull (-104) (nearest n 0) := by
  rw [nearest]
  split
  · next hsmall => exact absurd hsmall (by omega)
  split
  · exact isFull_infinity _
  · show IsFull (-104) (Float.ofScientific n false 0)
    rw [Float.ofScientific]
    split
    · next hlt => exact (isFull_toFloat hn hlt.1).mul_one (by decide)
    · exact Full.mono (isFull_ofScientific hn) (by decide)

/-- **The double of a whole number** is zero for zero only. -/
theorem ofInt?_not_zero {i : Int} {f : Float} (h : ofInt? i = some f) (hi : i ≠ 0) :
    (f == 0.0) = false := by
  rw [ofInt?] at h
  split at h
  · exact absurd h (by simp)
  · have hfull := isFull_nearest (Int.natAbs_ne_zero.2 hi)
    rw [← Option.some.inj h]
    split
    · exact (hfull.neg (by decide)).not_zero
    · exact hfull.not_zero

end LinkOverride.Decimal
