/-!
# The fewest digits that read back

A positive double stands for all the reals that round to it. Of the decimals in that interval the
shortest is selected, and of two shortest ones the closer; a tie goes to the even digit. The
comparisons are exact, in natural numbers.
-/

namespace LinkOverride.Decimal

/-- The value `significand * 2 ^ exponent`. -/
structure Binary where
  significand : Nat
  exponent : Int
  /-- The gap below the value is half the gap above it. -/
  narrowBelow : Bool
  deriving DecidableEq, Repr

/-- The magnitude of a finite double, from its bits. -/
def Binary.ofBits (bits : UInt64) : Binary :=
  let e := ((bits >>> 52) &&& 0x7FF).toNat
  let f := (bits &&& 0xFFFFFFFFFFFFF).toNat
  if e = 0 then ⟨f, -1074, false⟩
  else ⟨0x10000000000000 + f, (e : Int) - 1075, decide (f = 0 ∧ 1 < e)⟩

/-- The value `digits * 10 ^ exponent`. -/
structure Scaled where
  digits : Nat
  exponent : Int
  deriving DecidableEq, Repr

/-- Compares `d * 10 ^ i` with `n * 2 ^ j`. -/
def compareScaled (d : Nat) (i : Int) (n : Nat) (j : Int) : Ordering :=
  compare (d * Nat.pow 10 i.toNat * Nat.pow 2 (-j).toNat)
    (n * Nat.pow 2 j.toNat * Nat.pow 10 (-i).toNat)

/-- A fourth of the last place is the unit in which both ends of the interval are whole. The ends
belong to it if the significand is even. -/
def Binary.readsBack (x : Binary) (d : Scaled) : Bool :=
  let lo := if x.narrowBelow then 4 * x.significand - 1 else 4 * x.significand - 2
  let hi := 4 * x.significand + 2
  let closed := x.significand % 2 == 0
  let below := compareScaled d.digits d.exponent lo (x.exponent - 2)
  let above := compareScaled d.digits d.exponent hi (x.exponent - 2)
  (below == .gt || (closed && below == .eq)) && (above == .lt || (closed && above == .eq))

/-- Whether `10 ^ k` is at most the value. -/
def Binary.reaches (x : Binary) (k : Int) : Bool :=
  compareScaled 1 k x.significand x.exponent != .gt

def climb (x : Binary) : Nat → Int → Int
  | 0, k => k
  | steps + 1, k => if x.reaches (k + 1) then climb x steps (k + 1) else k

/-- The exponent of the leading decimal digit. The binary logarithm bounds it from below, and is
less than four too small. -/
def Binary.leading (x : Binary) : Int :=
  let lower := (((x.significand.log2 : Int) + x.exponent) * 30103).fdiv 100000 - 1
  climb x 4 lower

/-- The value counted in units of `10 ^ k`, rounded down. -/
def Binary.floorAt (x : Binary) (k : Int) : Nat :=
  (x.significand * Nat.pow 2 x.exponent.toNat * Nat.pow 10 (-k).toNat) /
    (Nat.pow 2 (-x.exponent).toNat * Nat.pow 10 k.toNat)

/-- The closest point of the grid `10 ^ k` that reads back. -/
def Binary.onGrid? (x : Binary) (k : Int) : Option Scaled :=
  let n := x.floorAt k
  let low : Scaled := ⟨n, k⟩
  let high : Scaled := ⟨n + 1, k⟩
  match x.readsBack low, x.readsBack high with
  | true, true =>
    match compareScaled (2 * n + 1) k (2 * x.significand) x.exponent with
    | .gt => some low
    | .lt => some high
    | .eq => some (if n % 2 = 0 then low else high)
  | true, false => some low
  | false, true => some high
  | false, false => none

/-- The exact value as a decimal. -/
def Binary.exact (x : Binary) : Scaled :=
  ⟨x.significand * Nat.pow 2 x.exponent.toNat * Nat.pow 5 (-x.exponent).toNat,
    -((-x.exponent).toNat : Int)⟩

def dropZeros : Nat → Scaled → Scaled
  | 0, d => d
  | steps + 1, d =>
    if d.digits ≠ 0 ∧ d.digits % 10 = 0 then dropZeros steps ⟨d.digits / 10, d.exponent + 1⟩ else d

/-- The shortest decimal of a positive value; seventeen digits always suffice. -/
def Binary.shortest (x : Binary) : Scaled :=
  let grids := (List.range 17).map fun (n : Nat) => x.leading - (n : Int)
  dropZeros 800 ((grids.findSome? x.onGrid?).getD x.exact)

end LinkOverride.Decimal
