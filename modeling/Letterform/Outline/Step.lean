import Letterform.Geometry.Point

/-!
Outlines as steps of a pen. Every step is relative to where the pen is, and the
points of a curve are chained: each one is an offset from the point before it.
Both kinds of font outlines come to this form.
-/

namespace Letterform

open Coordinate (ofInt)

inductive Step (α : Type)
  | move (offset : Point α)
  | line (offset : Point α)
  | quadratic (control last : Point α)
  | cubic (first second last : Point α)
  deriving DecidableEq, Repr

namespace Step

variable {α : Type}

def isCurve : Step α → Bool
  | .move _ | .line _ => false
  | .quadratic _ _ | .cubic _ _ _ => true

def points [Add α] : Step α → List (Point α)
  | .move offset => [offset]
  | .line offset => [offset]
  | .quadratic control last => [control, control + last]
  | .cubic first second last => [first, first + second, first + second + last]

def endOffset [Add α] : Step α → Point α
  | .move offset => offset
  | .line offset => offset
  | .quadratic control last => control + last
  | .cubic first second last => first + second + last

variable [Coordinate α]

/-- The point that has come a part `t` of the way, by the weights of the points in the Bernstein
form of the curve. The start has the weight that is left over. -/
def pointAt (start : Point α) (t : α) : Step α → Point α
  | .move offset => start + offset.scale t
  | .line offset => start + offset.scale t
  | .quadratic control last =>
      let s := ofInt 1 - t
      start + control.scale (ofInt 2 * s * t) + (control + last).scale (t * t)
  | .cubic first second last =>
      let s := ofInt 1 - t
      start + first.scale (ofInt 3 * s * s * t) + (first + second).scale (ofInt 3 * s * t * t) +
        (first + second + last).scale (t * t * t)

/-- The same curve with two control points. Each is a third of the way from the old
one to an end of the curve. -/
def toCubic : Step α → Step α
  | .quadratic control last =>
      let stop := control + last
      let first := control.map fun coordinate => ofInt 2 * coordinate / ofInt 3
      let second := (control.map (ofInt 2 * ·) + stop).map (· / ofInt 3)
      .cubic first (second - first) (stop - second)
  | step => step

end Step

abbrev Outline (α : Type) := List (Step α)

namespace Outline

variable {α : Type} [Coordinate α]

def toCubics (outline : Outline α) : Outline α := outline.map Step.toCubic

end Outline

end Letterform
