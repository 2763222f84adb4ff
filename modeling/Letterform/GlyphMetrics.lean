import Letterform.Table.HorizontalMetrics

/-!
Metrics of glyphs: what the `head` and `hmtx` tables say, and the side bearings and
the height that follow from the bounds of an outline.
-/

namespace Letterform

structure GlyphMetrics where
  unitsPerEm : UInt16
  table : Option HorizontalMetrics
  deriving DecidableEq, Repr

namespace GlyphMetrics

def defaultUnitsPerEm : UInt16 := 1000

def advance? (metrics : GlyphMetrics) (glyph : GlyphId) : Option UInt16 := do
  (← metrics.table).advance? glyph

def bearing? (metrics : GlyphMetrics) (glyph : GlyphId) : Option Int16 := do
  (← metrics.table).bearing? glyph

end GlyphMetrics

def FontFile.glyphMetrics (file : FontFile) : GlyphMetrics where
  unitsPerEm := match file.header with
    | .ok header => header.unitsPerEm
    | .error _ => GlyphMetrics.defaultUnitsPerEm
  table := file.horizontalMetrics.toOption

structure GlyphExtent where
  leftBearing : Float
  /-- What the advance leaves to the right of the bounds. -/
  rightBearing : Float
  advance : Float
  height : Float

/-- There is none if the width or the height of the bounds does not fit 32 bits. -/
def GlyphExtent.ofBounds? (advance leftBearing : Float) (bounds : Box Int32) :
    Option GlyphExtent := do
  let width ← bounds.width32?
  let height ← bounds.height32?
  return {
    leftBearing, advance
    rightBearing := advance - (leftBearing + .ofInt width.toInt)
    height := .ofInt height.toInt }

end Letterform
