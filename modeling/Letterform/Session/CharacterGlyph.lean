import Letterform.GlyphId
import Letterform.GlyphMetrics
import Letterform.Hash
import Letterform.Outline.Bounds
import Letterform.Outline.Text
import Letterform.Text.Json

/-!
The glyph of a character, with its outline and all that follows from the outline.
-/

namespace Letterform

inductive OutlineKind
  | cff
  | trueType
  deriving DecidableEq, Repr

def OutlineKind.name : OutlineKind → String
  | .cff => "CFF"
  | .trueType => "TTF"

def outlineHash (outline : Outline Float) : UInt64 :=
  fnv1a outline.compactText.toUTF8.toList

structure GlyphShape where
  outline : Outline Float
  advance : Float
  leftBearing : Option Float

/-- Without a left bearing of its own a glyph has the left side of its bounds. -/
def GlyphShape.extent? (shape : GlyphShape) : Option GlyphExtent :=
  let bounds := shape.outline.bounds
  GlyphExtent.ofBounds? shape.advance (shape.leftBearing.getD bounds.xMin.toFloat) bounds

structure CharacterGlyph where
  font : String
  character : Char
  glyph : GlyphId
  kind : OutlineKind
  unitsPerEm : UInt16
  outline : Outline Float
  bounds : Box Int32
  extent : GlyphExtent
  hash : UInt64

namespace CharacterGlyph

def json (glyph : CharacterGlyph) : String :=
  jsonObject [
    ("font", .text glyph.font),
    ("glyph", .text glyph.character.toString),
    ("height", .ofFloat glyph.extent.height),
    ("index", .integer glyph.glyph.toNat),
    ("lsb", .ofFloat glyph.extent.leftBearing),
    ("maxx", .integer glyph.bounds.xMax.toInt),
    ("maxy", .integer glyph.bounds.yMax.toInt),
    ("minx", .integer glyph.bounds.xMin.toInt),
    ("miny", .integer glyph.bounds.yMin.toInt),
    ("outline", .text glyph.outline.compactText),
    ("quadsize", .integer glyph.unitsPerEm.toNat),
    ("rsb", .ofFloat glyph.extent.rightBearing),
    ("type", .text glyph.kind.name),
    ("width", .ofFloat glyph.extent.advance)]

end CharacterGlyph

end Letterform
