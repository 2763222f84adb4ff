import Letterform.Cff.Font
import Letterform.Outline.Path

/-!
Outlines from the `CFF ` table. A charstring also gives the advance of its glyph.
-/

namespace Letterform

namespace Charstring.Command

def pathElement? {α : Type} [Coordinate α] : Command → Option (PathElement α)
  | .moveTo point => some (.move (point.map Coordinate.ofFixed))
  | .lineTo point => some (.line (point.map Coordinate.ofFixed))
  | .curveTo first second last => some (.cubic (first.map Coordinate.ofFixed)
      (second.map Coordinate.ofFixed) (last.map Coordinate.ofFixed))
  | .close => some .close
  | .stem _ _ _ | .mask _ _ => none

end Charstring.Command

namespace Cff

structure GlyphOutline (α : Type) where
  outline : Outline α
  advance : Float
  summary : Charstring.Summary

def Font.glyphOutline {α : Type} [Coordinate α] (font : Font) (glyph : GlyphId) :
    Except Fault (GlyphOutline α) := do
  let program ← font.program glyph
  let evaluation := program.evaluate
  let summary ← evaluation.summary
  return {
    outline := Path.toOutline (evaluation.commands.filterMap Charstring.Command.pathElement?)
    advance := program.advance summary
    summary }

end Cff

end Letterform
