import Letterform.Number.Fixed
import Mathlib.Algebra.Group.Basic
import Mathlib.Algebra.Group.Int.Defs

/-!
Sums and differences of fixed-point numbers. They wrap around, and so the numbers form
a group under addition. Other integers are kept within 32 bits by going to the nearest one.
-/

namespace Letterform

theorem toInt_saturate32 (value : Int) :
    (saturate32 value).toInt = max (-2 ^ 31) (min value (2 ^ 31 - 1)) := by
  have least : Int32.minValue.toInt = -2 ^ 31 := rfl
  have greatest : Int32.maxValue.toInt = 2 ^ 31 - 1 := rfl
  rw [saturate32, least, greatest]
  exact Int32.toInt_ofInt_of_le (by omega) (by omega)

namespace Fixed

theorem add_eq (first second : Fixed) : first + second = ⟨first.bits + second.bits⟩ := rfl

theorem neg_eq (value : Fixed) : -value = ⟨-value.bits⟩ := rfl

theorem sub_eq (first second : Fixed) : first - second = ⟨first.bits - second.bits⟩ := rfl

instance : Zero Fixed := ⟨zero⟩

theorem zero_eq : zero = 0 := rfl

instance : AddCommGroup Fixed where
  add_assoc first second third := by
    simp only [add_eq, Int32.add_assoc]
  zero_add value := by
    rw [← zero_eq, zero, add_eq, Int32.zero_add]
  add_zero value := by
    rw [← zero_eq, zero, add_eq, Int32.add_zero]
  neg_add_cancel value := by
    rw [neg_eq, add_eq, Int32.add_left_neg, ← zero_eq, zero]
  add_comm first second := by
    rw [add_eq, add_eq, Int32.add_comm]
  sub_eq_add_neg first second := by
    rw [sub_eq, neg_eq, add_eq, Int32.sub_eq_add_neg]
  nsmul := nsmulRec
  zsmul := zsmulRec

end Fixed

end Letterform
