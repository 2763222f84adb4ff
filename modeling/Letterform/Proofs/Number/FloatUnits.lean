import Letterform.Geometry.Coordinate
import Letterform.Proofs.Number.DecimalText
import Letterform.Proofs.Number.Fixed
import Mathlib

/-!
Floating-point numbers as whole numbers of units. The unit is the least positive number, and an
infinite number counts as the power of two that is beyond all finite ones. So the order of the
numbers is the order of their counts.
-/

namespace Letterform

attribute [local instance] naturalPower

open Float.Model (UnpackedFloat)
open Float.Model.UnpackedFloat (Sign)

namespace FloatValue

def isNegative : Sign → Bool
  | .negative => true
  | .positive => false

def ofUnpacked : UnpackedFloat → FloatValue
  | .infinity sign => .infinite (isNegative sign)
  | .notANumber => .nan
  | .zero sign => .finite (isNegative sign) ⟨0, -1074⟩
  | .finite sign mantissa exponent _ => .finite (isNegative sign) ⟨mantissa, exponent⟩

section

variable (value : Float)

theorem toNat_unpackMantissa :
    (@UnpackedFloat.unpackMantissa .binary64 value.toBits.toBitVec).toNat =
      value.toBits.toNat % 2 ^ (52 : Nat) := by
  simp [UnpackedFloat.unpackMantissa, BitVec.extractLsb]

theorem toNat_unpackSign :
    (@UnpackedFloat.unpackSign .binary64 value.toBits.toBitVec).toNat =
      value.toBits.toNat / 2 ^ (63 : Nat) := by
  have below : value.toBits.toNat < 2 ^ (64 : Nat) := value.toBits.toBitVec.isLt
  have quotient : value.toBits.toNat / 2 ^ (63 : Nat) < 2 := by omega
  simp [UnpackedFloat.unpackSign, BitVec.extractLsb, Nat.shiftRight_eq_div_pow]
  omega

theorem isNegative_unpackSign :
    isNegative (.ofBitVec (@UnpackedFloat.unpackSign .binary64 value.toBits.toBitVec)) =
      decide (value.toBits.toNat / 2 ^ (63 : Nat) = 1) := by
  rw [← toNat_unpackSign]
  generalize @UnpackedFloat.unpackSign .binary64 value.toBits.toBitVec = bit
  revert bit
  decide

theorem toNat_leadingOne (mantissa : BitVec 52) :
    (1#1 ++ mantissa).toNat = 2 ^ (52 : Nat) + mantissa.toNat := by
  rw [BitVec.toNat_append, ← Nat.shiftLeft_add_eq_or_of_lt mantissa.isLt, Nat.shiftLeft_eq]
  rfl

theorem ofFloat_eq : ofFloat value = ofUnpacked value.toModel.unpack := by
  have ones : @UnpackedFloat.unpackExponent .binary64 value.toBits.toBitVec = -1#11 ↔
      value.toBits.toNat / 2 ^ (52 : Nat) % 2 ^ (11 : Nat) = 2047 := by
    rw [← toNat_unpackExponent, ← BitVec.toNat_inj]
    rfl
  have zeros : @UnpackedFloat.unpackExponent .binary64 value.toBits.toBitVec = 0#11 ↔
      value.toBits.toNat / 2 ^ (52 : Nat) % 2 ^ (11 : Nat) = 0 := by
    rw [← toNat_unpackExponent, ← BitVec.toNat_inj]
    rfl
  have noFraction : @UnpackedFloat.unpackMantissa .binary64 value.toBits.toBitVec = 0#52 ↔
      value.toBits.toNat % 2 ^ (52 : Nat) = 0 := by
    rw [← toNat_unpackMantissa, ← BitVec.toNat_inj]
    rfl
  show ofFloat value = ofUnpacked (UnpackedFloat.unpack .binary64 value.toBits.toBitVec)
  simp only [ofFloat, UnpackedFloat.unpack]
  by_cases full : value.toBits.toNat / 2 ^ (52 : Nat) % 2 ^ (11 : Nat) = 2047
  · rw [if_pos full, if_pos (ones.mpr full)]
    by_cases none : value.toBits.toNat % 2 ^ (52 : Nat) = 0
    · rw [if_pos none, if_pos (noFraction.mpr none), ofUnpacked, isNegative_unpackSign]
    · rw [if_neg none, if_neg (none ∘ noFraction.mp), ofUnpacked]
  · rw [if_neg full, if_neg (full ∘ ones.mp)]
    by_cases least : value.toBits.toNat / 2 ^ (52 : Nat) % 2 ^ (11 : Nat) = 0
    · rw [if_pos least, if_pos (zeros.mpr least)]
      by_cases none : value.toBits.toNat % 2 ^ (52 : Nat) = 0
      · rw [dif_pos (noFraction.mpr none), ofUnpacked, none, isNegative_unpackSign]
      · rw [dif_neg (none ∘ noFraction.mp), ofUnpacked, isNegative_unpackSign,
          toNat_unpackMantissa, toNat_unpackExponent, least]
        rfl
    · rw [if_neg least, if_neg (least ∘ zeros.mp), ofUnpacked, isNegative_unpackSign,
        toNat_unpackExponent, toNat_leadingOne, toNat_unpackMantissa]
      rfl

end

/-! Units. -/

def size (magnitude : Binary) : Nat := magnitude.mantissa * 2 ^ (magnitude.exponent + 1074).toNat

@[irreducible] def infiniteSize : Nat := 2 ^ (2098 : Nat)

theorem two_pow_le_infiniteSize {exponent : Nat} (within : exponent ≤ 2098) :
    2 ^ exponent ≤ infiniteSize := by
  unfold infiniteSize
  gcongr
  decide

theorem infiniteSize_pos : 0 < infiniteSize :=
  two_pow_le_infiniteSize (Nat.zero_le 2098)

def signed (negative : Bool) (size : Nat) : Int := if negative then -size else size

theorem signed_mul (negative : Bool) (first second : Nat) :
    signed negative (first * second) = signed negative first * second := by
  cases negative with
  | false => exact Int.natCast_mul _ _
  | true => exact (congrArg Neg.neg (Int.natCast_mul _ _)).trans (Int.neg_mul _ _).symm

def units : FloatValue → Int
  | .nan => 0
  | .infinite negative => signed negative infiniteSize
  | .finite negative magnitude => signed negative (size magnitude)

structure IsCanonical (magnitude : Binary) : Prop where
  width : magnitude.mantissa < 2 ^ 53
  least : -1074 ≤ magnitude.exponent
  greatest : magnitude.exponent ≤ 971
  full : 2 ^ 52 ≤ magnitude.mantissa ∨ magnitude.exponent = -1074

theorem isCanonical_of_ofFloat {value : Float} {negative : Bool} {magnitude : Binary}
    (finite : ofFloat value = .finite negative magnitude) : IsCanonical magnitude := by
  have field : value.toBits.toNat / 2 ^ (52 : Nat) % 2 ^ (11 : Nat) < 2048 :=
    Nat.mod_lt _ (by decide)
  have fraction : value.toBits.toNat % 2 ^ (52 : Nat) < 2 ^ 52 := Nat.mod_lt _ (by decide)
  simp only [ofFloat] at finite
  split at finite
  · split at finite <;> cases finite
  · split at finite
    · cases finite
      refine ⟨?_, ?_, ?_, .inr rfl⟩ <;> simp only [] <;> omega
    · cases finite
      constructor <;> simp only [] <;> omega

section

variable {first second : Binary} (left : IsCanonical first) (right : IsCanonical second)

include left

theorem size_lt_infiniteSize : size first < infiniteSize := by
  have below : 53 + (first.exponent + 1074).toNat ≤ 2098 := by
    have := left.greatest
    omega
  calc
    first.mantissa * 2 ^ (first.exponent + 1074).toNat
      < 2 ^ 53 * 2 ^ (first.exponent + 1074).toNat :=
        Nat.mul_lt_mul_of_pos_right left.width (Nat.two_pow_pos _)
    _ = 2 ^ (53 + (first.exponent + 1074).toNat) := (Nat.pow_add 2 53 _).symm
    _ ≤ infiniteSize := two_pow_le_infiniteSize below

include right

theorem size_lt_size (less : first.exponent < second.exponent) : size first < size second := by
  have full : 2 ^ 52 ≤ second.mantissa :=
    right.full.resolve_right fun least => by have := left.least; omega
  have above : (first.exponent + 1074).toNat + 1 ≤ (second.exponent + 1074).toNat := by
    have := left.least
    omega
  calc
    first.mantissa * 2 ^ (first.exponent + 1074).toNat
      < 2 ^ 53 * 2 ^ (first.exponent + 1074).toNat :=
        Nat.mul_lt_mul_of_pos_right left.width (Nat.two_pow_pos _)
    _ = 2 ^ 52 * 2 ^ ((first.exponent + 1074).toNat + 1) := by
        rw [Nat.pow_succ 2 (first.exponent + 1074).toNat]
        ring
    _ ≤ second.mantissa * 2 ^ (second.exponent + 1074).toNat :=
        Nat.mul_le_mul full (Nat.pow_le_pow_right (by decide) above)

theorem compare_sizes :
    (compare first.exponent second.exponent).then (compare first.mantissa second.mantissa) =
      compare (size first : Int) (size second) := by
  rcases lt_trichotomy first.exponent second.exponent with less | equal | greater
  · have sizes : (size first : Int) < size second := Int.ofNat_lt.mpr (size_lt_size left right less)
    rw [compare_lt_iff_lt.mpr less, compare_lt_iff_lt.mpr sizes]
    rfl
  · have positive : 0 < 2 ^ (second.exponent + 1074).toNat := Nat.two_pow_pos _
    rw [size, size, equal, compare_eq_iff_eq.mpr rfl, Ordering.eq_then]
    rcases lt_trichotomy first.mantissa second.mantissa with less | same | greater
    · have sizes := Int.ofNat_lt.mpr (Nat.mul_lt_mul_of_pos_right less positive)
      rw [compare_lt_iff_lt.mpr less, compare_lt_iff_lt.mpr sizes]
    · rw [same, compare_eq_iff_eq.mpr rfl, compare_eq_iff_eq.mpr rfl]
    · have sizes := Int.ofNat_lt.mpr (Nat.mul_lt_mul_of_pos_right greater positive)
      rw [compare_gt_iff_gt.mpr greater, compare_gt_iff_gt.mpr sizes]
  · have sizes : (size second : Int) < size first :=
      Int.ofNat_lt.mpr (size_lt_size right left greater)
    rw [compare_gt_iff_gt.mpr greater, compare_gt_iff_gt.mpr sizes]
    rfl

end

theorem size_pos {mantissa : Nat} (exponent : Int) (positive : 0 < mantissa) :
    0 < size ⟨mantissa, exponent⟩ :=
  Nat.mul_pos positive (Nat.two_pow_pos _)

theorem compare_neg (first second : Int) :
    compare (-first) (-second) = (compare first second).swap := by
  rw [Int.compare_swap]
  rcases lt_trichotomy first second with less | rfl | greater
  · rw [compare_gt_iff_gt.mpr less, compare_gt_iff_gt.mpr (Int.neg_lt_neg less)]
  · rw [compare_eq_iff_eq.mpr rfl, compare_eq_iff_eq.mpr rfl]
  · rw [compare_lt_iff_lt.mpr greater, compare_lt_iff_lt.mpr (Int.neg_lt_neg greater)]

section

variable {mantissa : Nat} {exponent : Int} (positive : 0 < mantissa)

@[simp] theorem units_infinity_negative :
    (ofUnpacked (.infinity .negative)).units = -infiniteSize := rfl

@[simp] theorem units_infinity_positive :
    (ofUnpacked (.infinity .positive)).units = infiniteSize := rfl

@[simp] theorem units_zero (sign : Sign) : (ofUnpacked (.zero sign)).units = 0 := by
  cases sign <;> simp [ofUnpacked, isNegative, units, signed, size]

@[simp] theorem units_finite_negative :
    (ofUnpacked (.finite .negative mantissa exponent positive)).units =
      -size ⟨mantissa, exponent⟩ := rfl

@[simp] theorem units_finite_positive :
    (ofUnpacked (.finite .positive mantissa exponent positive)).units =
      size ⟨mantissa, exponent⟩ := rfl

end

theorem some_compare_lt {first second : Int} (less : first < second) :
    some Ordering.lt = some (compare first second) :=
  congrArg some (compare_lt_iff_lt.mpr less).symm

theorem some_compare_eq {first second : Int} (equal : first = second) :
    some Ordering.eq = some (compare first second) :=
  congrArg some (compare_eq_iff_eq.mpr equal).symm

theorem some_compare_gt {first second : Int} (greater : second < first) :
    some Ordering.gt = some (compare first second) :=
  congrArg some (compare_gt_iff_gt.mpr greater).symm

structure IsUnpacked (value : UnpackedFloat) : Prop where
  isNumber : value.isNaN = false
  canonical : ∀ negative magnitude, ofUnpacked value = .finite negative magnitude →
    IsCanonical magnitude

section

variable {value : UnpackedFloat} (unpacked : IsUnpacked value)

include unpacked

theorem compare_infinity (sign : Sign) :
    (UnpackedFloat.infinity sign).compare value =
      some (compare (ofUnpacked (.infinity sign)).units (ofUnpacked value).units) := by
  have infinite := infiniteSize_pos
  cases value with
  | notANumber => cases unpacked.isNumber
  | infinity sign' =>
      cases sign with
      | negative =>
          cases sign' with
          | negative => exact some_compare_eq rfl
          | positive => exact some_compare_lt (by simp; omega)
      | positive =>
          cases sign' with
          | negative => exact some_compare_gt (by simp; omega)
          | positive => exact some_compare_eq rfl
  | zero =>
      cases sign with
      | negative => exact some_compare_lt (by simp; omega)
      | positive => exact some_compare_gt (by simp; omega)
  | finite sign' =>
      have below := size_lt_infiniteSize (unpacked.canonical _ _ rfl)
      cases sign with
      | negative => cases sign' <;> exact some_compare_lt (by simp; omega)
      | positive => cases sign' <;> exact some_compare_gt (by simp; omega)

theorem compare_zero (sign : Sign) :
    (UnpackedFloat.zero sign).compare value =
      some (compare (ofUnpacked (.zero sign)).units (ofUnpacked value).units) := by
  have infinite := infiniteSize_pos
  cases value with
  | notANumber => cases unpacked.isNumber
  | infinity sign' =>
      cases sign' with
      | negative => exact some_compare_gt (by simp; omega)
      | positive => exact some_compare_lt (by simp; omega)
  | zero => exact some_compare_eq (by simp)
  | finite sign' mantissa exponent positive =>
      have above := size_pos exponent positive
      cases sign' with
      | negative => exact some_compare_gt (by simp; omega)
      | positive => exact some_compare_lt (by simp; omega)

theorem compare_finite (sign : Sign) {mantissa : Nat} {exponent : Int} (positive : 0 < mantissa)
    (canonical : IsCanonical ⟨mantissa, exponent⟩) :
    (UnpackedFloat.finite sign mantissa exponent positive).compare value =
      some (compare (ofUnpacked (.finite sign mantissa exponent positive)).units
        (ofUnpacked value).units) := by
  have above := size_pos exponent positive
  have below := size_lt_infiniteSize canonical
  cases value with
  | notANumber => cases unpacked.isNumber
  | infinity sign' =>
      cases sign' with
      | negative => cases sign <;> exact some_compare_gt (by simp; omega)
      | positive => cases sign <;> exact some_compare_lt (by simp; omega)
  | zero =>
      cases sign with
      | negative => exact some_compare_lt (by simp; omega)
      | positive => exact some_compare_gt (by simp; omega)
  | finite sign' mantissa' exponent' positive' =>
      have above' := size_pos exponent' positive'
      have sizes := compare_sizes canonical (unpacked.canonical _ _ rfl)
      cases sign with
      | negative =>
          cases sign' with
          | negative =>
              rw [units_finite_negative, units_finite_negative, compare_neg]
              exact congrArg (fun ordering => some ordering.swap) sizes
          | positive => exact some_compare_lt (by simp; omega)
      | positive =>
          cases sign' with
          | negative => exact some_compare_gt (by simp; omega)
          | positive => exact congrArg some sizes

theorem compare_eq {other : UnpackedFloat} (unpacked' : IsUnpacked other) :
    other.compare value = some (compare (ofUnpacked other).units (ofUnpacked value).units) := by
  cases other with
  | notANumber => cases unpacked'.isNumber
  | infinity sign => exact compare_infinity unpacked sign
  | zero sign => exact compare_zero unpacked sign
  | finite sign _ _ positive =>
      exact compare_finite unpacked sign positive (unpacked'.canonical _ _ rfl)

end

/-! Numbers. -/

def unitsOfOne : Nat := 2 ^ (1074 : Nat)

theorem unitsOfOne_pos : 0 < unitsOfOne := by
  unfold unitsOfOne
  positivity

/-- The number itself. An infinite one counts as a number that no finite one reaches, and what is
not a number as zero. -/
def number (value : FloatValue) : Rat := mkRat value.units unitsOfOne

theorem number_lt_iff {first second : FloatValue} :
    first.number < second.number ↔ first.units < second.units := by
  have positive : (0 : Rat) < unitsOfOne := Nat.cast_pos.mpr unitsOfOne_pos
  rw [number, number, Rat.mkRat_eq_div, Rat.mkRat_eq_div, div_lt_div_iff_of_pos_right positive,
    Int.cast_lt]

theorem number_finite {magnitude : Binary} (canonical : IsCanonical magnitude) (negative : Bool) :
    (finite negative magnitude).number = magnitude.toRat negative := by
  have least := canonical.least
  obtain ⟨rest, whole⟩ : ∃ rest, (-magnitude.exponent).toNat + rest = 1074 :=
    ⟨1074 - (-magnitude.exponent).toNat, by omega⟩
  have shift : (magnitude.exponent + 1074).toNat = magnitude.exponent.toNat + rest := by omega
  have one : unitsOfOne = 2 ^ (-magnitude.exponent).toNat * 2 ^ rest := by
    rw [unitsOfOne, ← Nat.pow_add, whole]
  have sizes : signed negative (size magnitude) =
      signed negative (magnitude.mantissa * 2 ^ magnitude.exponent.toNat) * (2 ^ rest : Nat) := by
    rw [size, shift, Nat.pow_add, ← Nat.mul_assoc, signed_mul]
  rw [number, units, one, sizes, Rat.mkRat_mul_right (Nat.two_pow_pos rest).ne']
  rfl

theorem number_infinite (negative : Bool) :
    ∃ beyond : Nat, 2 ^ 31 ≤ beyond ∧ (infinite negative).number = signed negative beyond := by
  have split {first second both : Nat} (sum : first + second = both) :
      2 ^ both = 2 ^ first * 2 ^ second := by
    rw [← sum, Nat.pow_add]
  have one : infiniteSize = 2 ^ (1024 : Nat) * unitsOfOne := by
    unfold infiniteSize unitsOfOne
    exact split rfl
  have sizes : signed negative infiniteSize =
      signed negative (2 ^ (1024 : Nat)) * unitsOfOne := by
    rw [one, signed_mul]
  refine ⟨2 ^ (1024 : Nat), by gcongr <;> decide, ?_⟩
  have mkOne (value : Int) : mkRat value 1 = value := by
    rw [Rat.mkRat_eq_div, Nat.cast_one, div_one]
  rw [number, units, sizes, ← Nat.one_mul unitsOfOne, Nat.cast_mul, Nat.cast_one, one_mul,
    Rat.mkRat_mul_right unitsOfOne_pos.ne', mkOne]

theorem saturate32_beyond {beyond : Nat} (above : 2 ^ 31 ≤ beyond) (negative : Bool) :
    saturate32 (signed negative beyond) =
      if negative then Int32.minValue else Int32.maxValue := by
  have least : Int32.minValue.toInt = -2 ^ 31 := rfl
  have greatest : Int32.maxValue.toInt = 2 ^ 31 - 1 := rfl
  rw [← Int32.toInt_inj, toInt_saturate32]
  cases negative with
  | false =>
      simp only [signed, Bool.false_eq_true, if_false, greatest]
      omega
  | true =>
      simp only [signed, if_true, least]
      omega

/-- Rounding goes by the number, whatever its kind. -/
theorem round32_eq {round : Rat → Int} (whole : ∀ value : Int, round value = value)
    (value : Float) :
    (ofFloat value).round32 round = saturate32 (round (ofFloat value).number) := by
  cases opened : ofFloat value with
  | nan =>
      rw [number, units, Rat.zero_mkRat]
      exact (congrArg saturate32 (whole 0)).symm
  | infinite negative =>
      rcases number_infinite negative with ⟨beyond, above, equal⟩
      rw [equal, whole, saturate32_beyond above]
      rfl
  | finite negative magnitude =>
      rw [number_finite (isCanonical_of_ofFloat opened)]
      rfl

/-! Comparisons. -/

theorem ofFloat_eq_nan {value : Float} (noNumber : value.isNaN = true) : ofFloat value = .nan := by
  rw [ofFloat_eq, UnpackedFloat.isNaN_iff.mp noNumber]
  rfl

theorem isUnpacked {value : Float} (isNumber : value.isNaN = false) :
    IsUnpacked value.toModel.unpack where
  isNumber := isNumber
  canonical _ _ finite := isCanonical_of_ofFloat ((ofFloat_eq value).trans finite)

theorem compare_of_isNaN {first second : Float}
    (noNumber : first.isNaN = true ∨ second.isNaN = true) :
    first.toModel.compare second.toModel = none := by
  show first.toModel.unpack.compare second.toModel.unpack = none
  rcases noNumber with noNumber | noNumber
  · rw [UnpackedFloat.isNaN_iff.mp noNumber]
    rfl
  · rw [UnpackedFloat.isNaN_iff.mp noNumber]
    cases first.toModel.unpack <;> rfl

theorem not_lt_of_isNaN {first second : Float}
    (noNumber : first.isNaN = true ∨ second.isNaN = true) : ¬first < second := by
  show ¬decide ((first.toModel.compare second.toModel == some .lt) = true) = true
  rw [compare_of_isNaN noNumber]
  decide

theorem not_le_of_isNaN {first second : Float}
    (noNumber : first.isNaN = true ∨ second.isNaN = true) : ¬first ≤ second := by
  show ¬decide ((first.toModel.compare second.toModel).any (·.isLE) = true) = true
  rw [compare_of_isNaN noNumber]
  decide

section

variable {first second : Float} (isNumber : first.isNaN = false) (isNumber' : second.isNaN = false)

include isNumber isNumber'

theorem compare_toModel :
    first.toModel.compare second.toModel =
      some (compare (ofFloat first).units (ofFloat second).units) := by
  rw [ofFloat_eq, ofFloat_eq]
  exact compare_eq (isUnpacked isNumber') (isUnpacked isNumber)

theorem lt_iff : first < second ↔ (ofFloat first).number < (ofFloat second).number := by
  have compared := compare_toModel isNumber isNumber'
  show decide ((first.toModel.compare second.toModel == some .lt) = true) = true ↔ _
  rw [compared, number_lt_iff, ← compare_lt_iff_lt]
  simp

theorem le_iff : first ≤ second ↔ (ofFloat first).number ≤ (ofFloat second).number := by
  have compared := compare_toModel isNumber isNumber'
  show decide ((first.toModel.compare second.toModel).any (·.isLE) = true) = true ↔ _
  rw [compared, ← not_lt, number_lt_iff, not_lt, ← compare_le_iff_le]
  simp [Ordering.isLE_iff_ne_gt]

end

theorem number_le_of_le {first second : Float} (le : first ≤ second) :
    (ofFloat first).number ≤ (ofFloat second).number := by
  cases isNumber : first.isNaN with
  | true => exact absurd le (not_le_of_isNaN (.inl isNumber))
  | false =>
      cases isNumber' : second.isNaN with
      | true => exact absurd le (not_le_of_isNaN (.inr isNumber'))
      | false => exact (le_iff isNumber isNumber').mp le

end FloatValue

end Letterform
