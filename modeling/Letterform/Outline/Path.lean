import Letterform.Outline.Step

/-!
Outlines as paths with absolute coordinates. A path says when a contour is closed;
an outline does not, its contours end where the next one begins.
-/

namespace Letterform

inductive PathElement (α : Type)
  | move (point : Point α)
  | line (point : Point α)
  | quadratic (control last : Point α)
  | cubic (first second last : Point α)
  | close
  deriving DecidableEq, Repr

abbrev Path (α : Type) := List (PathElement α)

namespace PathElement

variable {α : Type}

def points : PathElement α → List (Point α)
  | .move point => [point]
  | .line point => [point]
  | .quadratic control last => [control, last]
  | .cubic first second last => [first, second, last]
  | .close => []

/-- Where the pen is after an element. Closing a contour leaves it in its place. -/
def after (position : Point α) (element : PathElement α) : Point α :=
  element.points.getLast?.getD position

def step? [Sub α] (position : Point α) : PathElement α → Option (Step α)
  | .move point => some (.move (point - position))
  | .line point => some (.line (point - position))
  | .quadratic control last => some (.quadratic (control - position) (last - control))
  | .cubic first second last => some (.cubic (first - position) (second - first) (last - second))
  | .close => none

end PathElement

def Step.element {α : Type} [Add α] (position : Point α) : Step α → PathElement α
  | .move offset => .move (position + offset)
  | .line offset => .line (position + offset)
  | .quadratic control last => .quadratic (position + control) (position + control + last)
  | .cubic first second last =>
      .cubic (position + first) (position + first + second) (position + first + second + last)

namespace Path

variable {α : Type}

def after (position : Point α) (path : Path α) : Point α :=
  path.foldl PathElement.after position

def steps [Sub α] : (position : Point α) → Path α → Outline α
  | _, [] => []
  | position, element :: elements =>
      (element.step? position).toList ++ steps (element.after position) elements

def toOutline [Coordinate α] (path : Path α) : Outline α := path.steps .origin

/-- Closes every contour before the next one begins and after the last. Only a move begins
one. -/
def closeContours : (isOpen : Bool) → Path α → Path α
  | isOpen, [] => if isOpen then [.close] else []
  | isOpen, .move point :: elements =>
      (if isOpen then [.close] else []) ++ .move point :: closeContours true elements
  | isOpen, element :: elements => element :: closeContours isOpen elements

end Path

namespace Outline

variable {α : Type}

def elements [Add α] : (position : Point α) → Outline α → Path α
  | _, [] => []
  | position, step :: steps =>
      let element := step.element position
      element :: elements (element.after position) steps

def toPath [Coordinate α] (outline : Outline α) : Path α :=
  .closeContours false (outline.elements .origin)

end Outline

end Letterform
