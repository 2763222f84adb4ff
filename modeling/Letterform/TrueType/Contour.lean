import Letterform.Outline.Path
import Letterform.TrueType.Point

/-!
Contours of TrueType glyphs. Points on the curve are joined by lines and points off
the curve are the controls of quadratic curves. Between two neighbours that are off
the curve, their midpoint is on it.
-/

namespace Letterform.TrueType

structure OutlinePoint (α : Type) where
  position : Point α
  isOnCurve : Bool
  deriving DecidableEq, Repr

abbrev Contour (α : Type) := List (OutlinePoint α)

namespace OutlinePoint

variable {α : Type}

def ofCurvePoint [Coordinate α] (point : CurvePoint) : OutlinePoint α where
  position := ⟨Coordinate.ofInt point.x.toInt, Coordinate.ofInt point.y.toInt⟩
  isOnCurve := point.isOnCurve

def map (place : Point α → Point α) (point : OutlinePoint α) : OutlinePoint α :=
  { point with position := place point.position }

end OutlinePoint

namespace Contour

variable {α : Type} [Coordinate α]

/-- The lines and curves through points, up to the close. A control without an end waits for the
next point; after the last point it ends at the start of the contour. -/
def segments (start : Point α) : (control : Option (Point α)) → Contour α → Path α
  | none, [] => [.close]
  | some control, [] => [.quadratic control start, .close]
  | none, point :: points =>
      if point.isOnCurve then .line point.position :: segments start none points
      else segments start (some point.position) points
  | some control, point :: points =>
      if point.isOnCurve then .quadratic control point.position :: segments start none points
      else .quadratic control (control.midpoint point.position) ::
        segments start (some point.position) points

/-- Where a contour starts and the points that are left: at its first point, or else at its
last, or else at the midpoint of the two, whichever is on the curve. -/
def start? (contour : Contour α) : Option (Point α × Contour α) := do
  let first ← contour.head?
  let last ← contour.getLast?
  if first.isOnCurve then return (first.position, contour.tail)
  else if last.isOnCurve then return (last.position, contour.dropLast)
  else return (last.position.midpoint first.position, contour)

def toPath (contour : Contour α) : Path α :=
  match contour.start? with
  | some (start, points) => .move start :: segments start none points
  | none => []

end Contour

/-- The points of a glyph. The ends are the positions of the last points of the contours. -/
structure GlyphPoints (α : Type) where
  points : Array (OutlinePoint α) := #[]
  ends : Array Nat := #[]
  deriving DecidableEq, Repr

namespace GlyphPoints

variable {α : Type}

def isEmpty (glyph : GlyphPoints α) : Bool := glyph.points.isEmpty

/-- The contours up to the given ends. One that does not lie within the points is left out. -/
def contoursFrom (points : Array (OutlinePoint α)) : (start : Nat) → List Nat → List (Contour α)
  | _, [] => []
  | start, last :: ends =>
      let stop := last + 1
      (if start ≤ stop ∧ stop ≤ points.size then [(points.extract start stop).toList] else []) ++
        contoursFrom points stop ends

def contours (glyph : GlyphPoints α) : List (Contour α) :=
  contoursFrom glyph.points 0 glyph.ends.toList

def toPath [Coordinate α] (glyph : GlyphPoints α) : Path α :=
  glyph.contours.flatMap Contour.toPath

end GlyphPoints

end Letterform.TrueType
