import Letterform.Number.Fixed
import Mathlib.Algebra.Order.Field.Basic
import Mathlib.Algebra.Order.Ring.Rat
import Mathlib.Tactic.FieldSimp
import Mathlib.Tactic.Linarith
import Mathlib.Tactic.Ring

/-!
Products and quotients of fixed-point numbers. Each is the exact one, rounded to the nearest
multiple of `2 ^ -16`, and a half goes away from zero. They are calculated in 64 bits, where no
step overflows; only the last one, back to 32 bits, may drop high bits of a product.
-/

namespace Letterform

/-! Rounding. -/

/-- An integer nearest to a number; of two that are equally near, the one further from zero. -/
structure RoundsAway (value : Rat) (nearest : Int) : Prop where
  near : |value - nearest| ≤ 1 / 2
  away : |value - nearest| = 1 / 2 → |value| < |(nearest : Rat)|

namespace RoundsAway

theorem neg {value : Rat} {nearest : Int} (rounds : RoundsAway value nearest) :
    RoundsAway (-value) (-nearest) := by
  have distance : |-value - ((-nearest : Int) : Rat)| = |value - nearest| := by
    rw [Int.cast_neg, neg_sub_neg, abs_sub_comm]
  constructor
  · rw [distance]
    exact rounds.near
  · rw [distance, Int.cast_neg, abs_neg, abs_neg]
    exact rounds.away

/-- A half has one neighbour on each side, and only one of them is further from zero. -/
theorem unique {value : Rat} {first second : Int} (left : RoundsAway value first)
    (right : RoundsAway value second) : first = second := by
  by_contra different
  wlog below : first < second generalizing first second
  · exact this right left (Ne.symm different) (by omega)
  have ⟨_, aboveFirst⟩ := abs_le.mp left.near
  have ⟨belowSecond, _⟩ := abs_le.mp right.near
  have apart : (first : Rat) + 1 ≤ second := by exact_mod_cast below
  have firstHalf : value - first = 1 / 2 := by linarith
  have secondHalf : value - second = -(1 / 2) := by linarith
  have firstFurther := left.away (by rw [firstHalf, abs_of_pos one_half_pos])
  have secondFurther := right.away (by rw [secondHalf, abs_neg, abs_of_pos one_half_pos])
  -- A number above its lower neighbour by a half is further out than it, unless both are negative.
  rw [← sq_lt_sq] at firstFurther secondFurther
  have firstPlace : (first : Rat) = value - 1 / 2 := by linarith
  have secondPlace : (second : Rat) = value + 1 / 2 := by linarith
  rw [firstPlace] at firstFurther
  rw [secondPlace] at secondFurther
  have low : -1 < (first : Rat) := by rw [firstPlace]; nlinarith
  have high : (first : Rat) < 0 := by rw [firstPlace]; nlinarith
  have : -1 < first := by exact_mod_cast low
  have : first < 0 := by exact_mod_cast high
  omega

theorem ofNat_div (dividend : Nat) {divisor : Nat} (positive : 0 < divisor) :
    RoundsAway (dividend / divisor) ((dividend + divisor / 2) / divisor : Nat) := by
  have split := Nat.div_add_mod (dividend + divisor / 2) divisor
  have rest := Nat.mod_lt (dividend + divisor / 2) positive
  generalize (dividend + divisor / 2) / divisor = quotient at split ⊢
  generalize (dividend + divisor / 2) % divisor = remainder at split rest
  generalize multiplied : divisor * quotient = multiple at split
  have scale : (0 : Rat) < 2 * divisor := by exact_mod_cast Nat.mul_pos two_pos positive
  have distance : |(dividend : Rat) / divisor - (quotient : Int)| =
      |((2 * dividend - 2 * multiple : Int) : Rat)| / (2 * divisor) := by
    rw [← abs_of_pos scale, ← abs_div, ← multiplied]
    congr 1
    push_cast
    field_simp
  have half : (1 : Rat) / 2 = (divisor : Int) / (2 * divisor) := by
    push_cast
    field_simp
  constructor
  · rw [distance, half, div_le_div_iff_of_pos_right scale]
    have close : |(2 * dividend - 2 * multiple : Int)| ≤ divisor := abs_le.mpr (by omega)
    exact_mod_cast close
  · intro isHalf
    rw [distance, half, div_left_inj' scale.ne'] at isHalf
    have tie : |(2 * dividend - 2 * multiple : Int)| = divisor := by exact_mod_cast isHalf
    -- Both an even and an odd divisor leave only the multiple above.
    have below : dividend < multiple := by
      rcases abs_choice (2 * dividend - 2 * multiple : Int) with same | opposite
      · omega
      · omega
    have scale : (0 : Rat) < divisor := by exact_mod_cast positive
    rw [Int.cast_natCast, Nat.abs_cast, abs_of_nonneg (by positivity), div_lt_iff₀ scale]
    rw [← multiplied, mul_comm] at below
    exact_mod_cast below

theorem ofInt_div (dividend : Int) {divisor : Nat} (positive : 0 < divisor) :
    let quotient : Int := ((dividend.natAbs + divisor / 2) / divisor : Nat)
    RoundsAway (dividend / divisor) (if dividend < 0 then -quotient else quotient) := by
  intro quotient
  have rounds : RoundsAway (dividend.natAbs / divisor) quotient := ofNat_div _ positive
  split
  · next negative =>
      have size : (dividend : Rat) = -(dividend.natAbs : Rat) := by
        rw [Nat.cast_natAbs, Int.cast_abs, abs_of_neg (Int.cast_lt_zero.mpr negative), neg_neg]
      rw [size, neg_div]
      exact rounds.neg
  · next notNegative =>
      have size : (dividend : Rat) = (dividend.natAbs : Rat) := by
        rw [Nat.cast_natAbs, Int.cast_abs, abs_of_nonneg (Int.cast_nonneg (by omega))]
      rw [size]
      exact rounds

end RoundsAway

/-! Steps in 64 bits. -/

def fits64? (value : Int) : Option Int64 :=
  if (Int64.ofInt value).toInt = value then some (Int64.ofInt value) else none

theorem fits64?_eq_some {value : Int} {word : Int64} (same : word.toInt = value) :
    fits64? value = some word := by
  rw [fits64?, ← same, Int64.ofInt_toInt, if_pos rfl]

theorem bmod_of_fits {value : Int} (low : -2 ^ 63 ≤ value) (high : value < 2 ^ 63) :
    value.bmod (2 ^ 64) = value :=
  Int.bmod_eq_of_le (by omega) (by omega)

theorem toInt_shiftRight (value : Int64) {count : Int64} {places : Nat}
    (counted : (count.toBitVec.smod 64).toNat = places) :
    (value >>> count).toInt = value.toInt / (2 ^ places : Nat) := by
  rw [← Int64.toInt_toBitVec, Int64.toBitVec_shiftRight, BitVec.sshiftRight_eq', counted,
    BitVec.toInt_sshiftRight, Int.shiftRight_eq_div_pow, Int64.toInt_toBitVec]

theorem toInt_abs (value : Int32) : value.toInt64.abs.toInt = value.toInt.natAbs := by
  have low := value.le_toInt
  have ordinary : value.toInt64.toBitVec ≠ BitVec.intMin 64 := by
    intro least
    have same : value.toInt = (BitVec.intMin 64).toInt := by
      rw [← least, Int64.toInt_toBitVec, Int32.toInt_toInt64]
    rw [show (BitVec.intMin 64).toInt = -2 ^ 63 by decide] at same
    omega
  have size : value.toInt64.abs.toInt = value.toInt64.toBitVec.abs.toInt := rfl
  rw [size, BitVec.toInt_abs_eq_natAbs_of_ne_intMin ordinary, Int64.toInt_toBitVec,
    Int32.toInt_toInt64]

theorem toInt_shiftLeft {value : Int64} (low : 0 ≤ value.toInt) (high : value.toInt ≤ 2 ^ 31) :
    (value <<< 16).toInt = value.toInt * 65536 := by
  have count : ((16 : Int64).toBitVec.smod 64).toNat = 16 := by decide
  have power : (BitVec.twoPow 64 16).toInt = 2 ^ 16 := by decide
  rw [← Int64.toInt_toBitVec, Int64.toBitVec_shiftLeft, BitVec.shiftLeft_eq', count,
    BitVec.shiftLeft_eq_mul_twoPow, BitVec.toInt_mul, power, Int64.toInt_toBitVec]
  exact bmod_of_fits (by omega) (by omega)

theorem toInt_min (first second : Int64) :
    (min first second).toInt = min first.toInt second.toInt := by
  show (if first ≤ second then first else second).toInt = _
  rw [apply_ite Int64.toInt, min_def]
  simp only [Int64.le_iff_toInt_le]

namespace Fixed

/-! Products. -/

def mul? (first second : Fixed) : Option Fixed := do
  let product ← fits64? (first.bits.toInt64.toInt * second.bits.toInt64.toInt)
  let raised ← fits64? (product.toInt + 0x8000)
  let lowered ← fits64? (raised.toInt - if product.toInt < 0 then 1 else 0)
  return ⟨(lowered >>> 16).toInt32⟩

theorem abs_mul_le (first second : Int32) : |first.toInt * second.toInt| ≤ 2 ^ 62 := by
  have left : |first.toInt| ≤ 2 ^ 31 := abs_le.mpr ⟨first.le_toInt, first.toInt_lt.le⟩
  have right : |second.toInt| ≤ 2 ^ 31 := abs_le.mpr ⟨second.le_toInt, second.toInt_lt.le⟩
  calc |first.toInt * second.toInt| = |first.toInt| * |second.toInt| := abs_mul _ _
    _ ≤ 2 ^ 31 * 2 ^ 31 := mul_le_mul left right (abs_nonneg _) (by norm_num)
    _ = 2 ^ 62 := by norm_num

theorem toInt_product (first second : Int32) :
    (first.toInt64 * second.toInt64).toInt = first.toInt * second.toInt := by
  have bounds := abs_le.mp (abs_mul_le first second)
  rw [Int64.toInt_mul, Int32.toInt_toInt64, Int32.toInt_toInt64]
  exact bmod_of_fits (by omega) (by omega)

section

variable {product : Int64} (small : |product.toInt| ≤ 2 ^ 62)

include small

theorem toInt_raised : (product + 0x8000).toInt = product.toInt + 0x8000 := by
  have bounds := abs_le.mp small
  have half : (0x8000 : Int64).toInt = 0x8000 := rfl
  rw [Int64.toInt_add, half]
  exact bmod_of_fits (by omega) (by omega)

theorem toInt_lowered : (product + 0x8000 - if product < 0 then 1 else 0).toInt =
    product.toInt + 0x8000 - if product.toInt < 0 then 1 else 0 := by
  have bounds := abs_le.mp small
  have correction :
      (if product < 0 then 1 else 0 : Int64).toInt = if product.toInt < 0 then 1 else 0 := by
    simp only [Int64.lt_iff_toInt_lt, Int64.toInt_zero]
    split
    · rfl
    · rfl
  rw [Int64.toInt_sub, toInt_raised small, correction]
  exact bmod_of_fits (by omega) (by omega)

end

theorem mul?_eq_some (first second : Fixed) : first.mul? second = some (first * second) := by
  have product := toInt_product first.bits second.bits
  have small := product ▸ abs_mul_le first.bits second.bits
  simp only [mul?, Int32.toInt_toInt64, Option.bind_eq_bind, fits64?_eq_some product,
    Option.bind_some, fits64?_eq_some (toInt_raised small), toInt_raised small,
    fits64?_eq_some (toInt_lowered small)]
  rfl

theorem exists_roundsAway_mul (first second : Fixed) :
    ∃ nearest, RoundsAway (first.bits.toInt * second.bits.toInt / 65536) nearest ∧
      (first * second).bits.toInt = nearest.bmod (2 ^ 32) := by
  have product := toInt_product first.bits second.bits
  have small := product ▸ abs_mul_le first.bits second.bits
  have bits : (first * second).bits = ((first.bits.toInt64 * second.bits.toInt64 + 0x8000 -
      if first.bits.toInt64 * second.bits.toInt64 < 0 then 1 else 0) >>> 16).toInt32 := rfl
  rw [bits, Int64.toInt_toInt32, toInt_shiftRight _ (by decide : _ = 16), toInt_lowered small,
    product, ← Int.cast_mul]
  generalize first.bits.toInt * second.bits.toInt = exact
  refine ⟨_, RoundsAway.ofInt_div exact (by decide : 0 < 65536), congrArg (Int.bmod · _) ?_⟩
  split
  · omega
  · omega

/-! Quotients. -/

def bound : Int64 := 0x7FFFFFFF

def quotientSize (dividend divisor : Int64) : Int64 :=
  if divisor = 0 then bound
  else min (((dividend <<< 16) + (divisor >>> 1)) / divisor) bound

theorem div_eq (first second : Fixed) :
    let size := quotientSize first.bits.toInt64.abs second.bits.toInt64.abs
    first / second = ⟨(if (first.bits < 0) != (second.bits < 0) then -size else size).toInt32⟩ :=
  rfl

def quotientSize? (dividend divisor : Int64) : Option Int64 :=
  if divisor = 0 then some bound
  else do
    let scaled ← fits64? (dividend.toInt * 65536)
    let raised ← fits64? (scaled.toInt + (divisor >>> 1).toInt)
    let quotient ← fits64? (raised.toInt.tdiv divisor.toInt)
    return min quotient bound

def div? (first second : Fixed) : Option Fixed := do
  let dividend ← fits64? first.bits.toInt.natAbs
  let divisor ← fits64? second.bits.toInt.natAbs
  let size ← quotientSize? dividend divisor
  let quotient ← fits64?
    (if (first.bits < 0) != (second.bits < 0) then -size.toInt else size.toInt)
  return ⟨quotient.toInt32⟩

structure IsSize (value : Int64) : Prop where
  low : 0 ≤ value.toInt
  high : value.toInt ≤ 2 ^ 31

theorem isSize_abs (value : Int32) : IsSize value.toInt64.abs := by
  have low := value.le_toInt
  have high := value.toInt_lt
  constructor
  · rw [toInt_abs]
    exact Int.natCast_nonneg _
  · rw [toInt_abs]
    omega

section

variable {dividend divisor : Int64} (isDividend : IsSize dividend) (isDivisor : IsSize divisor)

theorem toInt_half : (divisor >>> 1).toInt = divisor.toInt / 2 :=
  toInt_shiftRight divisor (by decide : _ = 1)

include isDividend isDivisor

theorem toInt_raisedDividend : ((dividend <<< 16) + (divisor >>> 1)).toInt =
    dividend.toInt * 65536 + divisor.toInt / 2 := by
  have ⟨_, _⟩ := isDividend
  have ⟨_, _⟩ := isDivisor
  rw [Int64.toInt_add, toInt_shiftLeft isDividend.low isDividend.high, toInt_half]
  exact bmod_of_fits (by omega) (by omega)

theorem toInt_wholeQuotient : (((dividend <<< 16) + (divisor >>> 1)) / divisor).toInt =
    (dividend.toInt * 65536 + divisor.toInt / 2) / divisor.toInt := by
  have ⟨_, _⟩ := isDividend
  have ⟨_, _⟩ := isDivisor
  have raised := toInt_raisedDividend isDividend isDivisor
  have ordinary : (dividend <<< 16) + (divisor >>> 1) ≠ Int64.minValue := by
    intro least
    rw [least, Int64.toInt_minValue] at raised
    omega
  rw [Int64.toInt_div_of_ne_left _ _ ordinary, raised, Int.tdiv_eq_ediv_of_nonneg (by omega)]

theorem toInt_quotientSize (nonzero : divisor ≠ 0) : (quotientSize dividend divisor).toInt =
    min ((dividend.toInt * 65536 + divisor.toInt / 2) / divisor.toInt) (2 ^ 31 - 1) := by
  rw [quotientSize, if_neg nonzero, toInt_min, toInt_wholeQuotient isDividend isDivisor]
  rfl

theorem quotientSize_le : 0 ≤ (quotientSize dividend divisor).toInt ∧
    (quotientSize dividend divisor).toInt ≤ 2 ^ 31 - 1 := by
  by_cases zero : divisor = 0
  · rw [quotientSize, if_pos zero]
    decide
  · have ⟨_, _⟩ := isDividend
    have ⟨_, _⟩ := isDivisor
    have quotient : 0 ≤ (dividend.toInt * 65536 + divisor.toInt / 2) / divisor.toInt :=
      Int.ediv_nonneg (by omega) isDivisor.low
    rw [toInt_quotientSize isDividend isDivisor zero]
    omega

theorem quotientSize?_eq_some :
    quotientSize? dividend divisor = some (quotientSize dividend divisor) := by
  have scaled := toInt_shiftLeft isDividend.low isDividend.high
  have raised := toInt_raisedDividend isDividend isDivisor
  have quotient := toInt_wholeQuotient isDividend isDivisor
  have ⟨_, _⟩ := isDividend
  have ⟨_, _⟩ := isDivisor
  rw [quotientSize?, quotientSize]
  split
  · rfl
  · rw [← scaled, ← toInt_half] at raised
    rw [← Int.tdiv_eq_ediv_of_nonneg (by omega), ← scaled, ← toInt_half, ← raised] at quotient
    rw [fits64?_eq_some scaled, Option.bind_eq_bind, Option.bind_some, fits64?_eq_some raised,
      Option.bind_some, fits64?_eq_some quotient]
    rfl

end

def isNegative (first second : Fixed) : Bool := (first.bits < 0) != (second.bits < 0)

theorem toInt_signed (isNegative : Bool) {size : Int64} (low : 0 ≤ size.toInt)
    (high : size.toInt ≤ 2 ^ 31 - 1) :
    (if isNegative then -size else size).toInt = if isNegative then -size.toInt else size.toInt := by
  split
  · rw [Int64.toInt_neg]
    exact bmod_of_fits (by omega) (by omega)
  · rfl

theorem div?_eq_some (first second : Fixed) : first.div? second = some (first / second) := by
  have dividend := isSize_abs first.bits
  have divisor := isSize_abs second.bits
  have ⟨low, high⟩ := quotientSize_le dividend divisor
  rw [div?, fits64?_eq_some (toInt_abs first.bits), Option.bind_eq_bind, Option.bind_some,
    fits64?_eq_some (toInt_abs second.bits), Option.bind_some,
    quotientSize?_eq_some dividend divisor, Option.bind_some,
    fits64?_eq_some (toInt_signed _ low high)]
  rfl

theorem toInt_div (first second : Fixed) :
    let size := (quotientSize first.bits.toInt64.abs second.bits.toInt64.abs).toInt
    (first / second).bits.toInt = if first.isNegative second then -size else size := by
  have ⟨low, high⟩ := quotientSize_le (isSize_abs first.bits) (isSize_abs second.bits)
  rw [div_eq, Int64.toInt_toInt32, toInt_signed _ low high, isNegative]
  split
  · exact Int.bmod_eq_of_le (by omega) (by omega)
  · exact Int.bmod_eq_of_le (by omega) (by omega)

theorem toInt_div_zero (first : Fixed) :
    (first / zero).bits.toInt = if first.bits < 0 then -(2 ^ 31 - 1) else 2 ^ 31 - 1 := by
  have size : (quotientSize first.bits.toInt64.abs zero.bits.toInt64.abs).toInt = 2 ^ 31 - 1 := by
    rw [quotientSize, if_pos (by decide)]
    rfl
  have sign : first.isNegative zero = decide (first.bits < 0) := Bool.bne_false _
  rw [toInt_div, size, sign]
  simp only [decide_eq_true_eq]

theorem exact_quotient (first second : Fixed) :
    (first.bits.toInt * 65536 / second.bits.toInt : Rat) =
      let size : Rat := (first.bits.toInt.natAbs * 65536 : Nat) / second.bits.toInt.natAbs
      if first.isNegative second then -size else size := by
  simp only [isNegative, Int32.lt_iff_toInt_lt, Int32.toInt_zero, Nat.cast_mul, Nat.cast_natAbs,
    Int.cast_abs, Nat.cast_ofNat]
  generalize first.bits.toInt = dividend
  generalize second.bits.toInt = divisor
  rcases lt_or_ge dividend 0 with below | above
  · have below' : (dividend : Rat) < 0 := Int.cast_lt_zero.mpr below
    rcases lt_or_ge divisor 0 with negative | positive
    · have negative' : (divisor : Rat) < 0 := Int.cast_lt_zero.mpr negative
      simp [below, negative, abs_of_neg below', abs_of_neg negative']
    · have positive' : (0 : Rat) ≤ divisor := Int.cast_nonneg positive
      simp [below, positive.not_gt, abs_of_neg below', abs_of_nonneg positive', neg_div]
  · have above' : (0 : Rat) ≤ dividend := Int.cast_nonneg above
    rcases lt_or_ge divisor 0 with negative | positive
    · have negative' : (divisor : Rat) < 0 := Int.cast_lt_zero.mpr negative
      simp [above.not_gt, negative, abs_of_nonneg above', abs_of_neg negative', div_neg]
    · have positive' : (0 : Rat) ≤ divisor := Int.cast_nonneg positive
      simp [above.not_gt, positive.not_gt, abs_of_nonneg above', abs_of_nonneg positive']

theorem exists_roundsAway_div (first : Fixed) {second : Fixed} (nonzero : second ≠ zero) :
    ∃ nearest, RoundsAway (first.bits.toInt * 65536 / second.bits.toInt) nearest ∧
      (first / second).bits.toInt = max (-(2 ^ 31 - 1)) (min nearest (2 ^ 31 - 1)) := by
  have positive : 0 < second.bits.toInt.natAbs := by
    apply Int.natAbs_pos.mpr
    intro isZero
    exact nonzero (congrArg Fixed.mk (Int32.toInt_inj.mp isZero))
  have nonzeroSize : second.bits.toInt64.abs ≠ 0 := by
    intro isZero
    have size := toInt_abs second.bits
    rw [isZero, Int64.toInt_zero] at size
    omega
  have rounds := RoundsAway.ofNat_div (first.bits.toInt.natAbs * 65536) positive
  have size := toInt_quotientSize (isSize_abs first.bits) (isSize_abs second.bits) nonzeroSize
  rw [toInt_abs, toInt_abs] at size
  rw [toInt_div, size, exact_quotient]
  generalize first.bits.toInt.natAbs = dividend at rounds ⊢
  generalize second.bits.toInt.natAbs = divisor at rounds ⊢
  have whole : ((dividend : Int) * 65536 + divisor / 2) / divisor =
      ((dividend * 65536 + divisor / 2) / divisor : Nat) := by
    push_cast
    rfl
  rw [whole]
  generalize (dividend * 65536 + divisor / 2) / divisor = quotient at rounds ⊢
  split
  · exact ⟨_, rounds.neg, by omega⟩
  · exact ⟨_, rounds, by omega⟩

/-- Products and quotients are rounded, a half away from zero. A product keeps its low bits and a
quotient stays within 31 bits, and no step in 64 bits overflows on the way. -/
theorem mul_div_rounded (first second : Fixed) :
    (∃ nearest, RoundsAway (first.bits.toInt * second.bits.toInt / 65536) nearest ∧
      (first * second).bits.toInt = nearest.bmod (2 ^ 32)) ∧
    (if second = zero then
      (first / second).bits.toInt = if first.bits < 0 then -(2 ^ 31 - 1) else 2 ^ 31 - 1
    else
      ∃ nearest, RoundsAway (first.bits.toInt * 65536 / second.bits.toInt) nearest ∧
        (first / second).bits.toInt = max (-(2 ^ 31 - 1)) (min nearest (2 ^ 31 - 1))) ∧
    first.mul? second = some (first * second) ∧ first.div? second = some (first / second) := by
  refine ⟨exists_roundsAway_mul first second, ?_, mul?_eq_some first second,
    div?_eq_some first second⟩
  split
  · next isZero => exact isZero ▸ toInt_div_zero first
  · next nonzero => exact exists_roundsAway_div first nonzero

/-- The square of the least number keeps no bits, over the smallest step it stays at the bound, and
minus a half of that step goes to the whole step. -/
example : (minimum * minimum, minimum / epsilon, -epsilon * ⟨0x8000⟩) =
    (zero, ⟨-0x7FFFFFFF⟩, -epsilon) := by
  decide +kernel

end Fixed

end Letterform
