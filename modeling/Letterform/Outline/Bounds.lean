import Letterform.Outline.Step

/-!
Boxes around outlines. Curves are sampled, so a box may fall a little short of a
curve, but it always holds the end of every step. Its sides are integers, rounded
outward.
-/

namespace Letterform

open Coordinate (ofInt least greatest floor32 ceiling32)

variable {α : Type} [Coordinate α]

namespace Box

def ofPoint (point : Point α) : Box α := ⟨point.x, point.y, point.x, point.y⟩

def extend (box : Box α) (point : Point α) : Box α where
  xMin := least box.xMin point.x
  yMin := least box.yMin point.y
  xMax := greatest box.xMax point.x
  yMax := greatest box.yMax point.y

def around? : List (Point α) → Option (Box α)
  | [] => none
  | point :: points => some (points.foldl extend ((ofPoint point).extend point))

def roundOutward (box : Box α) : Box Int32 :=
  ⟨floor32 box.xMin, floor32 box.yMin, ceiling32 box.xMax, ceiling32 box.yMax⟩

end Box

namespace Step

def sampleCount : Nat := 40

def sampleParameters : List α :=
  (List.range sampleCount).map fun (index : Nat) => ofInt (index + 1) / ofInt sampleCount

def samples (start : Point α) (step : Step α) : List (Point α) :=
  (if step.isCurve then sampleParameters.map fun t => step.pointAt start t else []) ++
    [start + step.endOffset]

end Step

namespace Outline

def samples : (start : Point α) → Outline α → List (Point α)
  | _, [] => []
  | start, step :: steps => step.samples start ++ samples (start + step.endOffset) steps

/-- The box around an outline that is drawn from the origin; an empty one has a box of zeros. -/
def bounds (outline : Outline α) : Box Int32 :=
  match Box.around? (samples .origin outline) with
  | some box => box.roundOutward
  | none => ⟨0, 0, 0, 0⟩

end Outline

end Letterform
