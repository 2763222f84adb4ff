import Letterform.Geometry.Coordinate

/-!
Points and boxes in a y-up plane.
-/

namespace Letterform

structure Point (α : Type) where
  x : α
  y : α
  deriving DecidableEq, Repr

namespace Point

variable {α β : Type}

instance [Add α] : Add (Point α) := ⟨fun first second => ⟨first.x + second.x, first.y + second.y⟩⟩
instance [Sub α] : Sub (Point α) := ⟨fun first second => ⟨first.x - second.x, first.y - second.y⟩⟩

def map (transform : α → β) (point : Point α) : Point β := ⟨transform point.x, transform point.y⟩

def scale [Mul α] (point : Point α) (factor : α) : Point α := ⟨point.x * factor, point.y * factor⟩

def origin [Coordinate α] : Point α := ⟨Coordinate.ofInt 0, Coordinate.ofInt 0⟩

@[simp] theorem x_add [Add α] (first second : Point α) : (first + second).x = first.x + second.x :=
  rfl

@[simp] theorem y_add [Add α] (first second : Point α) : (first + second).y = first.y + second.y :=
  rfl

@[simp] theorem x_sub [Sub α] (first second : Point α) : (first - second).x = first.x - second.x :=
  rfl

@[simp] theorem y_sub [Sub α] (first second : Point α) : (first - second).y = first.y - second.y :=
  rfl

def midpoint [Coordinate α] (first second : Point α) : Point α :=
  first + (second - first).scale (Coordinate.ofInt 1 / Coordinate.ofInt 2)

end Point

structure Box (α : Type) where
  xMin : α
  yMin : α
  xMax : α
  yMax : α
  deriving DecidableEq, Repr

/-- The difference of two numbers, unless it leaves the 32 bits. -/
def difference32? (first second : Int32) : Option Int32 :=
  let difference := first - second
  if difference.toInt = first.toInt - second.toInt then some difference else none

namespace Box

def map {α β : Type} (transform : α → β) (box : Box α) : Box β :=
  ⟨transform box.xMin, transform box.yMin, transform box.xMax, transform box.yMax⟩

def width (box : Box Int) : Int := box.xMax - box.xMin

def height (box : Box Int) : Int := box.yMax - box.yMin

def width32? (box : Box Int32) : Option Int32 := difference32? box.xMax box.xMin

def height32? (box : Box Int32) : Option Int32 := difference32? box.yMax box.yMin

end Box

end Letterform
