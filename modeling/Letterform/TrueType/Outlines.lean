import Letterform.TrueType.Contour
import Letterform.TrueType.Locations

/-!
Outlines from the `glyf` table. A composite glyph has the points of its components,
each scaled and moved by all glyphs that it is a part of, from the innermost outward.
How deep components may lie is limited, which also ends those that contain
themselves.
-/

namespace Letterform.TrueType

inductive OutlineFault
  | read (glyph : GlyphId) (error : ReadError)
  | recursionLimit (glyph : GlyphId) (limit : Nat)
  | pointMatching (glyph : GlyphId)
  | contourOrder (glyph : GlyphId)
  deriving DecidableEq, Repr

namespace OutlineFault

def message : OutlineFault → String
  | .read glyph error => s!"{error.message} (in glyph {glyph.text})"
  | .recursionLimit glyph limit =>
      s!"Recursion limit ({limit}) exceeded when loading composite component {glyph.text}"
  | .pointMatching glyph => s!"Composite glyph {glyph.text} places a component by point " ++
      "matching, which is not supported"
  | .contourOrder glyph => s!"Contour end points in glyph {glyph.text} are out of order"

end OutlineFault

def liftRead {β : Type} (glyph : GlyphId) : Except ReadError β → Except OutlineFault β
  | .ok value => .ok value
  | .error error => .error (.read glyph error)

def defaultDepthLimit : Nat := 64

structure Outlines where
  locations : Locations
  glyphs : Bytes
  depthLimit : Nat := defaultDepthLimit
  deriving DecidableEq, Repr

/-! Placing components. -/

namespace Transform

variable {α : Type} [Coordinate α]

def apply (transform : Transform) (point : Point α) : Point α :=
  let scale (value : F2Dot14) : α := Coordinate.ofF2Dot14 value
  ⟨point.x * scale transform.xx + point.y * scale transform.xy,
    point.x * scale transform.yx + point.y * scale transform.yy⟩

/-- Scales a point and then moves it. The identity does not scale at all. -/
def place (transform : Transform) (offset point : Point α) : Point α :=
  (if transform = identity then point else transform.apply point) + offset

end Transform

def Component.place {α : Type} [Coordinate α] (component : Component) (glyph : GlyphId) :
    Except OutlineFault (Point α → Point α) :=
  match component.anchor with
  | .offset x y =>
      .ok (component.transform.place ⟨Coordinate.ofInt x.toInt, Coordinate.ofInt y.toInt⟩)
  | .points _ _ => .error (.pointMatching glyph)

namespace GlyphPoints

variable {α : Type}

def placeRange (place : Point α → Point α) : (count index : Nat) → Array (OutlinePoint α) →
    Array (OutlinePoint α)
  | 0, _, points => points
  | count + 1, index, points =>
      placeRange place count (index + 1) (points.modify index fun point => point.map place)

def placeFrom (place : Point α → Point α) (start : Nat) (glyph : GlyphPoints α) : GlyphPoints α :=
  { glyph with points := placeRange place (glyph.points.size - start) start glyph.points }

end GlyphPoints

namespace SimpleGlyph

def hasAscendingEnds (glyph : SimpleGlyph) : Bool :=
  (glyph.ends.zip glyph.ends.tail).all fun (first, second) => first < second

end SimpleGlyph

namespace Outlines

def glyph? (outlines : Outlines) (glyph : GlyphId) : Except OutlineFault (Option Glyph) :=
  liftRead glyph (outlines.locations.glyph? outlines.glyphs glyph)

def glyphCount (outlines : Outlines) : Nat := outlines.locations.size

def isTiny (outlines : Outlines) (glyph : GlyphId) (threshold : UInt16) :
    Except OutlineFault Bool := do
  match ← outlines.glyph? glyph with
  | none => return false
  | some glyph =>
      let box := glyph.box.map Int16.toInt
      return glyph.contourCount = 1 && box.width < threshold.toNat && box.height < threshold.toNat

variable {α : Type} [Coordinate α]

def appendSimple (id : GlyphId) (glyph : SimpleGlyph) (loaded : GlyphPoints α) :
    Except OutlineFault (GlyphPoints α) := do
  if !glyph.hasAscendingEnds then throw (.contourOrder id)
  let points ← liftRead id glyph.points
  return {
    points := loaded.points.appendList (points.map OutlinePoint.ofCurvePoint)
    ends := loaded.ends.appendList
      (glyph.ends.map fun last => loaded.points.size + last.toNat) }

def appendComponent
    (append : GlyphId → GlyphPoints α → Except OutlineFault (GlyphPoints α)) (id : GlyphId)
    (loaded : GlyphPoints α) (component : Except ReadError Component) :
    Except OutlineFault (GlyphPoints α) := do
  let component ← liftRead id component
  let place ← component.place id
  let start := loaded.points.size
  return (← append component.glyph loaded).placeFrom place start

/-- Adds the points of a glyph to those already there. Components may lie fewer than `levels`
deep. -/
def append (outlines : Outlines) : (levels : Nat) → GlyphId → GlyphPoints α →
    Except OutlineFault (GlyphPoints α)
  | 0, id, _ => .error (.recursionLimit id outlines.depthLimit)
  | levels + 1, id, loaded => do
      match ← outlines.glyph? id with
      | none => return loaded
      | some (.simple glyph) => appendSimple id glyph loaded
      | some (.composite glyph) =>
          glyph.components.foldlM (appendComponent (outlines.append levels) id) loaded

def points (outlines : Outlines) (glyph : GlyphId) : Except OutlineFault (GlyphPoints α) :=
  outlines.append (outlines.depthLimit + 1) glyph {}

def outline (outlines : Outlines) (glyph : GlyphId) : Except OutlineFault (Outline α) := do
  return (← outlines.points glyph).toPath.toOutline

end Outlines

end Letterform.TrueType

namespace Letterform.FontFile

def outlines (file : FontFile) : Except ReadError TrueType.Outlines := do
  let locations ← file.locations
  return { locations, glyphs := ← file.glyphs }

end Letterform.FontFile
