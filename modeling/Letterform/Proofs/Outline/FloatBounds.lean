import Letterform.Proofs.Number.FloatUnits
import Letterform.Proofs.Outline.Bounds

/-!
Boxes of outlines as they are drawn, in floating-point numbers. Samples that are not numbers give
way to those that are. So the sides of a box are in order, but they may lie farther apart than 32
bits can tell.
-/

namespace Letterform

open FloatValue (ofFloat)

/-! Sides. -/

namespace Side

def isOutside (outer inner : Float) : Side → Bool
  | .left | .bottom => outer < inner
  | .right | .top => inner < outer

/-- The outer value reaches the inner one, and is a number if that is one. -/
def Leads (outer inner : Float) (side : Side) : Prop :=
  inner.isNaN = false →
    outer.isNaN = false ∧ side.Reaches (ofFloat outer).number (ofFloat inner).number

variable {side : Side} {first second : Float}

theorem choose_eq (side : Side) (first second : Float) :
    side.choose first second =
      if side.isOutside second first || first.isNaN then second else first := by
  cases side <;> rfl

theorem isOutside_eq_false (noNumber : first.isNaN = true ∨ second.isNaN = true) :
    side.isOutside first second = false := by
  cases side with
  | left | bottom => exact decide_eq_false (FloatValue.not_lt_of_isNaN noNumber)
  | right | top => exact decide_eq_false (FloatValue.not_lt_of_isNaN noNumber.symm)

section

variable (isNumber : first.isNaN = false) (isNumber' : second.isNaN = false)

include isNumber isNumber'

theorem leads_of_isOutside (outside : side.isOutside first second = true) :
    side.Leads first second := by
  refine fun _ => ⟨isNumber, ?_⟩
  cases side with
  | left | bottom =>
      exact ((FloatValue.lt_iff isNumber isNumber').mp (of_decide_eq_true outside)).le
  | right | top =>
      exact ((FloatValue.lt_iff isNumber' isNumber).mp (of_decide_eq_true outside)).le

theorem leads_of_isOutside_eq_false (inside : side.isOutside second first = false) :
    side.Leads first second := by
  refine fun _ => ⟨isNumber, ?_⟩
  cases side with
  | left | bottom =>
      exact not_lt.mp fun less =>
        of_decide_eq_false inside ((FloatValue.lt_iff isNumber' isNumber).mpr less)
  | right | top =>
      exact not_lt.mp fun less =>
        of_decide_eq_false inside ((FloatValue.lt_iff isNumber isNumber').mpr less)

end

theorem leads_refl (value : Float) : side.Leads value value := by
  refine fun isNumber => ⟨isNumber, ?_⟩
  cases side <;> exact le_rfl

theorem leads_trans {third : Float} (outer : side.Leads first second)
    (inner : side.Leads second third) : side.Leads first third := by
  intro isNumber
  rcases inner isNumber with ⟨isNumber', reaches'⟩
  rcases outer isNumber' with ⟨isNumber'', reaches''⟩
  exact ⟨isNumber'', side.chooses.trans reaches'' reaches'⟩

theorem leads_choose (side : Side) (first second : Float) :
    side.Leads (side.choose first second) first ∧
      side.Leads (side.choose first second) second := by
  rw [choose_eq]
  cases isNumber : first.isNaN with
  | true =>
      rw [Bool.or_true, if_pos rfl]
      exact ⟨fun isNumber' => absurd (isNumber.symm.trans isNumber') (by decide), leads_refl second⟩
  | false =>
      cases isNumber' : second.isNaN with
      | true =>
          rw [isOutside_eq_false (.inl isNumber'), Bool.or_false, if_neg Bool.false_ne_true]
          exact ⟨leads_refl first, fun isNumber => absurd (isNumber'.symm.trans isNumber) (by decide)⟩
      | false =>
          rw [Bool.or_false]
          cases outside : side.isOutside second first with
          | true => exact ⟨leads_of_isOutside isNumber' isNumber outside, leads_refl second⟩
          | false => exact ⟨leads_refl first, leads_of_isOutside_eq_false isNumber isNumber' outside⟩

theorem chooses_float : Chooses side.choose fun outer inner : Float => side.Leads outer inner where
  choice first second := by
    rw [choose_eq]
    split
    · exact .inr rfl
    · exact .inl rfl
  left first second := (side.leads_choose first second).1
  right first second := (side.leads_choose first second).2
  trans := leads_trans

/-! Rounding. -/

theorem round_intCast (side : Side) (value : Int) : side.round value = value := by
  cases side with
  | left | bottom => exact Rat.floor_intCast value
  | right | top => exact Rat.ceil_intCast value

theorem round32_float (side : Side) (value : Float) :
    side.round32 value = side.round32 (ofFloat value).number := by
  rw [round32_eq, ← @FloatValue.round32_eq (fun value => side.round value) side.round_intCast]
  cases side <;> rfl

theorem reaches_number {outer inner : Float} (reaches : side.Reaches outer inner) :
    side.Reaches (ofFloat outer).number (ofFloat inner).number := by
  cases side with
  | left | bottom => exact FloatValue.number_le_of_le reaches
  | right | top => exact FloatValue.number_le_of_le reaches

/-- Between values that lead each other there are numbers, or both are none. -/
theorem number_le_of_leads (low : Side.left.Leads first second)
    (high : Side.right.Leads second first) :
    (ofFloat first).number ≤ (ofFloat second).number := by
  cases isNumber : second.isNaN with
  | false => exact (low isNumber).2
  | true =>
      cases isNumber' : first.isNaN with
      | false => exact absurd (isNumber.symm.trans (high isNumber').1) (by decide)
      | true =>
          rw [FloatValue.ofFloat_eq_nan isNumber, FloatValue.ofFloat_eq_nan isNumber']

theorem round32_le (le : (ofFloat first).number ≤ (ofFloat second).number) :
    (Side.left.round32 first).toInt ≤ (Side.right.round32 second).toInt := by
  rw [round32_float, round32_float, round32_eq, round32_eq]
  exact @saturate32_reaches .left _ _ ((Rat.floor_monotone le).trans (floor_le_ceil _))

end Side

/-! Boxes. -/

namespace Outline

variable {outline : Outline Float}

theorem reaches_bounds (side : Side) {limit : Int} (drawn : outline ≠ [])
    (reaches : ∀ sample ∈ outline.samples .origin,
      side.Reaches (limit : Rat) (ofFloat (side.ofPoint sample)).number) :
    side.Reaches (saturate32 limit).toInt (side.ofBox outline.bounds).toInt := by
  rcases exists_furthest side.chooses_float drawn with ⟨sample, sampled, equal, -⟩
  have rounded := Side.round_reaches (reaches sample sampled)
  rw [side.round_intCast] at rounded
  rw [equal, side.round32_float, side.round32_eq]
  exact Side.saturate32_reaches rounded

theorem bounds_nil : bounds ([] : Outline Float) = ⟨0, 0, 0, 0⟩ := rfl

/-- The sides of a box are in order, also where samples are not numbers. -/
theorem bounds_ordered (outline : Outline Float) :
    outline.bounds.xMin.toInt ≤ outline.bounds.xMax.toInt ∧
      outline.bounds.yMin.toInt ≤ outline.bounds.yMax.toInt := by
  by_cases drawn : outline = []
  · rw [drawn, bounds_nil]
    exact ⟨le_rfl, le_rfl⟩
  · rcases exists_furthest Side.left.chooses_float drawn with ⟨left, leftSampled, atLeft, leftmost⟩
    rcases exists_furthest Side.right.chooses_float drawn with
      ⟨right, rightSampled, atRight, rightmost⟩
    rcases exists_furthest Side.bottom.chooses_float drawn with
      ⟨bottom, bottomSampled, atBottom, lowest⟩
    rcases exists_furthest Side.top.chooses_float drawn with ⟨top, topSampled, atTop, highest⟩
    have horizontal : (Side.left.round32 (Side.left.ofPoint left)).toInt ≤
        (Side.right.round32 (Side.right.ofPoint right)).toInt :=
      Side.round32_le
        (Side.number_le_of_leads (leftmost right rightSampled) (rightmost left leftSampled))
    have vertical : (Side.bottom.round32 (Side.bottom.ofPoint bottom)).toInt ≤
        (Side.top.round32 (Side.top.ofPoint top)).toInt :=
      Side.round32_le (Side.number_le_of_leads (lowest top topSampled) (highest bottom bottomSampled))
    rw [← atLeft, ← atRight] at horizontal
    rw [← atBottom, ← atTop] at vertical
    exact ⟨horizontal, vertical⟩

end Outline

end Letterform
