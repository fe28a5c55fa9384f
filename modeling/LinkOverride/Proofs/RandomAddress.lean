import LinkOverride.Proofs.Spelling
import Mathlib.Probability.Distributions.Uniform

/-!
# Random addresses

The digits of a random address are drawn one after the other. None is lost, used twice or put in
another place, so the digits can be read off the address. And each canonical address has digits, so
it comes of exactly one draw. Hence if all draws are equally likely, so are all canonical addresses.

Addresses that are drawn one after the other are made of one row of digits, which they divide into
windows of the length of an address.
-/

namespace LinkOverride

open scoped ENNReal

namespace Address

open Text (hexDigit joinSep)

/-- The digits of an address, in the order in which they are drawn. -/
abbrev Draw := Fin digitCount → Fin 16

/-- A text of six octets in lower case with colons between them. -/
abbrev CanonicalText := { a : String // isCanonical a.toList = true }

theorem high_lt (i : Fin 6) : 2 * i.val < digitCount := by
  rw [digitCount]
  omega

theorem low_lt (i : Fin 6) : 2 * i.val + 1 < digitCount := by
  rw [digitCount]
  omega

/-- The two digits of an octet. -/
def octet (d : Draw) (i : Fin 6) : List Char :=
  [hexDigit (d ⟨2 * i.val, high_lt i⟩), hexDigit (d ⟨2 * i.val + 1, low_lt i⟩)]

theorem length_ofFn_draw (d : Draw) : (List.ofFn d).length = digitCount := List.length_ofFn

/-- The address whose digits are drawn. -/
def ofDraw (d : Draw) : CanonicalText :=
  ⟨String.ofList (ofDigits (List.ofFn d)), by
    rw [String.toList_ofList]
    exact isCanonical_ofDigits (length_ofFn_draw d)⟩

theorem toList_ofDraw (d : Draw) : (ofDraw d).1.toList = ofDigits (List.ofFn d) :=
  String.toList_ofList

/-- The octets are the digits in pairs. -/
theorem toList_ofDraw_eq (d : Draw) : (ofDraw d).1.toList = joinSep ':' (List.ofFn (octet d)) := by
  rw [toList_ofDraw]
  rfl

/-- **No digit is lost**: other digits make another address. -/
theorem ofDraw_injective : Function.Injective ofDraw := by
  intro d e h
  have htext : ofDigits (List.ofFn d) = ofDigits (List.ofFn e) := by
    rw [← toList_ofDraw, ← toList_ofDraw, h]
  exact List.ofFn_injective
    (ofDigits_injective (length_ofFn_draw d) (length_ofFn_draw e) htext)

/-- **Each canonical address** can be drawn. -/
theorem ofDraw_surjective : Function.Surjective ofDraw := by
  intro a
  obtain ⟨ds, hlen, ha⟩ := isCanonical_iff.1 a.2
  refine ⟨fun i => ds.get (i.cast hlen.symm), Subtype.ext (String.toList_injective ?_)⟩
  have hrow : List.ofFn (fun i : Fin digitCount => ds.get (i.cast hlen.symm)) = ds := by
    refine List.ext_getElem (by rw [List.length_ofFn, hlen]) fun i _ _ => ?_
    rw [List.getElem_ofFn]
    rfl
  rw [toList_ofDraw, hrow, ha]

theorem card_draw : Fintype.card Draw = 16 ^ 12 := by
  rw [Fintype.card_fun, Fintype.card_fin, Fintype.card_fin, digitCount]

/-- **All canonical addresses are equally likely** if all draws are. -/
theorem map_ofDraw_uniform (a : CanonicalText) :
    (PMF.uniformOfFintype Draw).map ofDraw a = (16 ^ 12 : ℝ≥0∞)⁻¹ := by
  obtain ⟨d, rfl⟩ := ofDraw_surjective a
  rw [PMF.map_apply, tsum_eq_single d]
  · rw [if_pos rfl, PMF.uniformOfFintype_apply, card_draw]
    norm_num
  · intro e hne
    exact if_neg fun h => hne (ofDraw_injective h).symm

end Address

namespace Machine

open Address

/-- The digits that are drawn after `k` addresses have been. -/
def window (m : Machine) (k : Nat) : Draw := fun i => m.host.digit (m.drawn + digitCount * k + i)

/-- Several random addresses, one after the other. -/
def randomAddresses : Nat → Step Machine (List String)
  | 0 => pure []
  | k + 1 => do
    let a ← randomAddress
    let as ← randomAddresses k
    return a :: as

theorem randomAddress_apply (m : Machine) :
    randomAddress m = (.ok (ofDraw (m.window 0)).1, { m with drawn := m.drawn + digitCount }) :=
  rfl

/-- Each address has a window of its own. -/
theorem randomAddresses_apply (k : Nat) (m : Machine) :
    randomAddresses k m =
      (.ok ((List.range k).map fun j => (ofDraw (m.window j)).1),
        { m with drawn := m.drawn + digitCount * k }) := by
  induction k generalizing m with
  | zero => rfl
  | succ k ih =>
    have hwindow : ∀ j, { m with drawn := m.drawn + digitCount }.window j = m.window (j + 1) := by
      intro j
      funext i
      rw [window, window, Nat.mul_succ, Nat.add_assoc m.drawn, Nat.add_comm digitCount]
    rw [randomAddresses, Step.bind_ok (randomAddress_apply m), Step.bind_ok (ih _),
      List.range_succ_eq_map, List.map_cons, List.map_map, Nat.mul_succ, Nat.add_assoc m.drawn,
      Nat.add_comm digitCount]
    simp only [hwindow]
    rfl

/-- The windows follow each other without a gap, and none has a digit of another. -/
theorem windows_eq (k : Nat) (m : Machine) :
    ((List.range k).flatMap fun j => List.ofFn (m.window j)) =
      (List.range (digitCount * k)).map fun i => m.host.digit (m.drawn + i) := by
  induction k with
  | zero => rfl
  | succ k ih =>
    have hlast : List.ofFn (m.window k) =
        (List.range digitCount).map fun i => m.host.digit (m.drawn + (digitCount * k + i)) := by
      simp only [← Nat.add_assoc]
      rfl
    rw [List.range_succ, List.flatMap_append, ih, List.flatMap_singleton, hlast, Nat.mul_succ,
      List.range_add, List.map_append, List.map_map]
    rfl

/-- **A random address** is made of the digits drawn, in their order, and of each row of digits there
is one canonical address, and of no two the same. So if all rows are equally likely, all canonical
addresses are. Addresses that are drawn one after the other take their digits in windows that follow
each other. -/
theorem randomAddress_bijective :
    (∀ m, randomAddress m =
      (.ok (ofDraw (m.window 0)).1, { m with drawn := m.drawn + digitCount })) ∧
    (∀ d, (ofDraw d).1.toList = Text.joinSep ':' (List.ofFn (octet d))) ∧
    Function.Bijective ofDraw ∧
    (∀ a, (PMF.uniformOfFintype Draw).map ofDraw a = (16 ^ 12 : ℝ≥0∞)⁻¹) ∧
    ∀ k m,
      randomAddresses k m =
        (.ok ((List.range k).map fun j => (ofDraw (m.window j)).1),
          { m with drawn := m.drawn + digitCount * k }) ∧
      ((List.range k).flatMap fun j => List.ofFn (m.window j)) =
        (List.range (digitCount * k)).map fun i => m.host.digit (m.drawn + i) :=
  ⟨randomAddress_apply, toList_ofDraw_eq, ⟨ofDraw_injective, ofDraw_surjective⟩,
    map_ofDraw_uniform, fun k m => ⟨randomAddresses_apply k m, windows_eq k m⟩⟩

end Machine

end LinkOverride
