import Letterform.Outline.Bounds
import Letterform.Outline.Path
import Mathlib.Algebra.Order.Ring.Rat
import Mathlib.Tactic.Ring

/-!
Curves in exact arithmetic. A point of a curve comes from its control points by blending
neighbours, again and again, until a single point is left. Raising quadratic curves to cubic ones
keeps all points of all curves, and so what an outline draws and the box around it stay the same.
-/

namespace Letterform

open Coordinate (ofInt)

theorem Coordinate.ofInt_rat (value : Int) : (ofInt value : Rat) = value := rfl

/-! Points of curves. -/

/-- The point that has come a part `t` of the way from one point to another. -/
def Point.blend (t : Rat) (first second : Point Rat) : Point Rat :=
  ⟨(1 - t) * first.x + t * second.x, (1 - t) * first.y + t * second.y⟩

theorem Point.add_assoc (first second third : Point Rat) :
    first + second + third = first + (second + third) :=
  congrArg₂ Point.mk (Rat.add_assoc _ _ _) (Rat.add_assoc _ _ _)

def PathElement.pointAt (start : Point Rat) (t : Rat) : PathElement Rat → Point Rat
  | .move point => .blend t start point
  | .line point => .blend t start point
  | .quadratic control last => .blend t (.blend t start control) (.blend t control last)
  | .cubic first second last =>
      .blend t (.blend t (.blend t start first) (.blend t first second))
        (.blend t (.blend t first second) (.blend t second last))
  | .close => start

namespace Step

variable (start : Point Rat) (t : Rat) (step : Step Rat)

/-- The weights of the control points are those of the blends. -/
theorem pointAt_eq : step.pointAt start t = (step.element start).pointAt start t := by
  cases step with
  | move | line | quadratic | cubic =>
      simp only [Step.pointAt, Step.element, PathElement.pointAt, Point.blend, Point.scale,
        Coordinate.ofInt_rat]
      apply congrArg₂ Point.mk
      · simp only [Point.x_add]
        push_cast
        ring
      · simp only [Point.y_add]
        push_cast
        ring

theorem getLast?_points_element :
    (step.element start).points.getLast? = some (start + step.endOffset) := by
  cases step with
  | move | line => rfl
  | quadratic | cubic =>
      simp only [Step.endOffset, ← Point.add_assoc]
      rfl

theorem after_element : (step.element start).after start = start + step.endOffset := by
  rw [PathElement.after, getLast?_points_element]
  rfl

theorem endOffset_toCubic : step.toCubic.endOffset = step.endOffset := by
  cases step with
  | move | line | cubic => rfl
  | quadratic control last =>
      apply congrArg₂ Point.mk
      · simp only [Point.x_add, Point.x_sub]
        ring
      · simp only [Point.y_add, Point.y_sub]
        ring

theorem isCurve_toCubic : step.toCubic.isCurve = step.isCurve := by
  cases step <;> rfl

theorem pointAt_toCubic : step.toCubic.pointAt start t = step.pointAt start t := by
  cases step with
  | move | line | cubic => rfl
  | quadratic control last =>
      simp only [Step.toCubic, Step.pointAt, Point.scale, Point.map, Coordinate.ofInt_rat]
      apply congrArg₂ Point.mk
      · simp only [Point.x_add, Point.x_sub]
        push_cast
        ring
      · simp only [Point.y_add, Point.y_sub]
        push_cast
        ring

theorem toCubic_toCubic : step.toCubic.toCubic = step.toCubic := by
  cases step <;> rfl

theorem toCubic_ne_quadratic (control last : Point Rat) :
    step.toCubic ≠ .quadratic control last := by
  cases step <;> simp [toCubic]

theorem samples_toCubic : step.toCubic.samples start = step.samples start := by
  simp only [samples, isCurve_toCubic, endOffset_toCubic, pointAt_toCubic]

end Step

namespace Outline

def positions {α : Type} [Add α] : (start : Point α) → Outline α → List (Point α)
  | _, [] => []
  | start, step :: steps => (start + step.endOffset) :: positions (start + step.endOffset) steps

def pointsAt (t : Rat) : (start : Point Rat) → Outline Rat → List (Point Rat)
  | _, [] => []
  | start, step :: steps =>
      (step.element start).pointAt start t :: pointsAt t (start + step.endOffset) steps

variable (start : Point Rat) (outline : Outline Rat)

theorem toCubics_cons (step : Step Rat) :
    toCubics (step :: outline) = step.toCubic :: outline.toCubics :=
  List.map_cons

theorem positions_toCubics : outline.toCubics.positions start = outline.positions start := by
  induction outline generalizing start with
  | nil => rfl
  | cons step steps induction =>
      rw [toCubics_cons, positions, positions, step.endOffset_toCubic, induction]

theorem pointsAt_toCubics (t : Rat) :
    outline.toCubics.pointsAt t start = outline.pointsAt t start := by
  induction outline generalizing start with
  | nil => rfl
  | cons step steps induction =>
      rw [toCubics_cons, pointsAt, pointsAt, ← Step.pointAt_eq, ← Step.pointAt_eq,
        step.pointAt_toCubic, step.endOffset_toCubic, induction]

theorem samples_toCubics : outline.toCubics.samples start = outline.samples start := by
  induction outline generalizing start with
  | nil => rfl
  | cons step steps induction =>
      rw [toCubics_cons, samples, samples, step.samples_toCubic, step.endOffset_toCubic, induction]

theorem toCubics_toCubics : outline.toCubics.toCubics = outline.toCubics := by
  simp only [toCubics, List.map_map]
  exact List.map_congr_left fun step _ => step.toCubic_toCubic

theorem bounds_toCubics : outline.toCubics.bounds = outline.bounds := by
  rw [bounds, samples_toCubics]
  rfl

end Outline

def Path.stops {α : Type} (path : Path α) : List (Option (Point α)) :=
  path.map fun element => element.points.getLast?

namespace Outline

/-- A quadratic curve and its cubic one begin no contour, and both end in the same place. -/
theorem stops_toCubics (isOpen : Bool) (start : Point Rat) (outline : Outline Rat) :
    (Path.closeContours isOpen (outline.toCubics.elements start)).stops =
      (Path.closeContours isOpen (outline.elements start)).stops := by
  induction outline generalizing isOpen start with
  | nil => rfl
  | cons step steps induction =>
      have stop : (step.toCubic.element start).points.getLast? =
          (step.element start).points.getLast? := by
        rw [Step.getLast?_points_element, Step.getLast?_points_element, step.endOffset_toCubic]
      have after : (step.toCubic.element start).after start = (step.element start).after start := by
        rw [Step.after_element, Step.after_element, step.endOffset_toCubic]
      cases step with
      | move offset =>
          have rest := induction true (start + offset)
          simp only [Path.stops] at rest
          simp only [toCubics_cons, elements, Step.toCubic, Step.element, Path.closeContours,
            Path.stops, List.map_append, List.map_cons]
          exact congrArg _ (congrArg (List.cons _) rest)
      | line | cubic => exact congrArg (List.cons _) (induction isOpen _)
      | quadratic control last =>
          exact congrArg₂ List.cons stop (after ▸ induction isOpen _)

/-- Raising quadratic curves keeps the number of steps, the places of the pen, every point of every
curve, what is drawn, and the box. No quadratic curve is left, and raising them again changes
nothing. -/
theorem toCubics_keeps (outline : Outline Rat) :
    outline.toCubics.length = outline.length ∧
    (∀ start, outline.toCubics.positions start = outline.positions start) ∧
    (∀ t start, outline.toCubics.pointsAt t start = outline.pointsAt t start) ∧
    outline.toCubics.toPath.stops = outline.toPath.stops ∧
    outline.toCubics.bounds = outline.bounds ∧
    (∀ control last, .quadratic control last ∉ outline.toCubics) ∧
    outline.toCubics.toCubics = outline.toCubics := by
  refine ⟨List.length_map _, fun start => positions_toCubics start outline,
    fun t start => pointsAt_toCubics start outline t, stops_toCubics false .origin outline,
    bounds_toCubics outline, ?_, toCubics_toCubics outline⟩
  intro control last member
  rcases List.mem_map.mp member with ⟨step, -, equal⟩
  exact step.toCubic_ne_quadratic control last equal

end Outline

end Letterform
