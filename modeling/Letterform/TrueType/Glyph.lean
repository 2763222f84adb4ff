import Letterform.Table.Headers
import Letterform.TrueType.Component
import Letterform.TrueType.Point

/-!
Glyphs of the `glyf` table. A glyph is simple if its number of contours is not
negative, and otherwise composed of other glyphs.
-/

namespace Letterform.TrueType

structure SimpleGlyph where
  box : Box Int16
  ends : List UInt16
  instructions : Bytes
  packed : Bytes
  deriving DecidableEq, Repr

structure CompositeGlyph where
  /-- Any negative number. -/
  contourCount : Int16
  box : Box Int16
  body : Cursor
  deriving DecidableEq, Repr

inductive Glyph
  | simple (glyph : SimpleGlyph)
  | composite (glyph : CompositeGlyph)
  deriving DecidableEq, Repr

namespace SimpleGlyph

def contourCount (glyph : SimpleGlyph) : Int16 := Int16.ofNat glyph.ends.length

def pointCount (glyph : SimpleGlyph) : Nat :=
  (glyph.ends.getLast?.map fun last => last.toNat + 1).getD 0

def points (glyph : SimpleGlyph) : Except ReadError (List CurvePoint) :=
  (pointsDecoder glyph.pointCount).decode glyph.packed

/-- The points for a place with room for some number of coordinates and of flags; both have to
be exact. -/
def pointsInto (glyph : SimpleGlyph) (room flagRoom : Nat) : Except ReadError (List CurvePoint) :=
  if room ≠ glyph.pointCount ∨ flagRoom ≠ glyph.pointCount then .error .invalidArrayLength
  else glyph.points

def decoder (box : Box Int16) (contourCount : Nat) : Decoder ReadError SimpleGlyph := do
  let ends ← Decoder.readList UInt16 contourCount
  let instructionLength : UInt16 ← Decoder.read UInt16
  let instructions ← Decoder.takeBytes instructionLength.toNat
  return ⟨box, ends, instructions, ← Decoder.rest⟩

end SimpleGlyph

namespace CompositeGlyph

/-- The components in order. If they are cut short, the last one is a fault. -/
def components (glyph : CompositeGlyph) : List (Except ReadError Component) :=
  (componentsFrom glyph.body).1

def instructions? (glyph : CompositeGlyph) : Option Bytes :=
  let (components, cursor) := componentsFrom glyph.body
  instructionsAfter components cursor

end CompositeGlyph

namespace Glyph

def contourCount : Glyph → Int16
  | .simple glyph => glyph.contourCount
  | .composite glyph => glyph.contourCount

def box : Glyph → Box Int16
  | .simple glyph => glyph.box
  | .composite glyph => glyph.box

def headerLength : Nat := 10

def decoder : Decoder ReadError Glyph := do
  let contourCount : Int16 ← Decoder.read Int16
  let box ← Decoder.readBox
  if 0 ≤ contourCount then
    return .simple (← SimpleGlyph.decoder box contourCount.toInt.toNat)
  else
    return .composite ⟨contourCount, box, { rest := ← Decoder.rest, position := headerLength }⟩

def ofBytes (bytes : Bytes) : Except ReadError Glyph := do
  discard (bytes.readAt Int16 0)
  bytes.requireLength headerLength
  decoder.decode bytes

end Glyph

/-! Writing. Glyphs take an even number of bytes. -/

def padEven (bytes : Bytes) : Bytes := if bytes.length % 2 = 0 then bytes else bytes ++ [0]

/-- The least box around points. Without points its sides are turned inside out. -/
def boxAround (points : List StoredPoint) : Box Int16 :=
  points.foldl (fun box point =>
    ⟨min box.xMin point.x, min box.yMin point.y, max box.xMax point.x, max box.yMax point.y⟩)
    ⟨Int16.maxValue, Int16.maxValue, Int16.minValue, Int16.minValue⟩

def contourEnds : (count : Nat) → List (List StoredPoint) → List UInt16
  | _, [] => []
  | count, contour :: contours =>
      UInt16.ofNat (count + contour.length - 1) :: contourEnds (count + contour.length) contours

def encodeContours (contours : List (List StoredPoint)) : Bytes :=
  padEven (Bytes.ofNumber 2 contours.length ++ (boxAround contours.flatten).encode ++
    Packed.encodeList (contourEnds 0 contours) ++ [0, 0] ++ encodePoints contours.flatten)

def encodeComponents (box : Box Int16) (components : List StoredComponent) : Bytes :=
  padEven (Packed.encode (-1 : Int16) ++ box.encode ++ StoredComponent.encodeList components)

end Letterform.TrueType
