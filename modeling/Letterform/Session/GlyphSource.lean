import Letterform.Cff.Outlines
import Letterform.CharacterMap
import Letterform.Session.CharacterGlyph
import Letterform.Session.Settings
import Letterform.TrueType.Outlines

/-!
Fonts as sources of glyphs for characters. A font that has outlines of both kinds is used
for its CFF outlines. A character has no glyph if the font does not map it, or if
the settings take its glyph for a placeholder.
-/

namespace Letterform

inductive FetchFault
  | read (error : ReadError)
  | cff (fault : Cff.Fault)
  | trueType (fault : TrueType.OutlineFault)
  | missingOutlines
  /-- The width or the height of a glyph does not fit 32 bits. -/
  | overflow
  deriving DecidableEq, Repr

def FetchFault.message : FetchFault → String
  | .read error => error.message
  | .cff fault => fault.message
  | .trueType fault => fault.message
  | .missingOutlines => "font has no CFF or glyf outlines"
  | .overflow => "attempt to subtract with overflow"

inductive OutlineSource
  | cff (font : Cff.Font)
  | trueType (outlines : TrueType.Outlines)

namespace OutlineSource

def ofFile (file : FontFile) (settings : Settings) : Except FetchFault OutlineSource :=
  if (file.table? .cff).isSome then (file.cffFont.mapError .cff).map .cff
  else if (file.table? .glyf).isSome then
    (file.outlines.mapError .read).map fun outlines =>
      .trueType { outlines with depthLimit := settings.depthLimit }
  else .error .missingOutlines

def kind : OutlineSource → OutlineKind
  | .cff _ => .cff
  | .trueType _ => .trueType

end OutlineSource

structure GlyphSource where
  name : String
  settings : Settings
  characterMap : CharacterMap
  metrics : GlyphMetrics
  outlines : OutlineSource

namespace GlyphSource

def ofBytes (bytes : Bytes) (name : String) (settings : Settings) :
    Except FetchFault GlyphSource := do
  let file ← (FontFile.ofBytes bytes).mapError .read
  return {
    name, settings
    outlines := ← OutlineSource.ofFile file settings
    characterMap := file.characterMap
    metrics := file.glyphMetrics }

def unitsPerEm (source : GlyphSource) : UInt16 := source.metrics.unitsPerEm

def glyphId? (source : GlyphSource) (character : Char) : Option GlyphId :=
  source.characterMap.glyph? character.val

def assemble (source : GlyphSource) (character : Char) (glyph : GlyphId) (shape : GlyphShape) :
    Except FetchFault CharacterGlyph :=
  match shape.extent? with
  | none => .error .overflow
  | some extent => .ok {
      font := source.name
      character, glyph, extent
      kind := source.outlines.kind
      unitsPerEm := source.unitsPerEm
      outline := shape.outline
      bounds := shape.outline.bounds
      hash := outlineHash shape.outline }

def isMark (source : GlyphSource) (outlines : TrueType.Outlines) (glyph : GlyphId) :
    Except TrueType.OutlineFault Bool :=
  match source.settings.tinyThreshold with
  | some threshold => outlines.isTiny glyph threshold
  | none => .ok false

def shape (source : GlyphSource) (glyph : GlyphId) : Except FetchFault (Option GlyphShape) :=
  match source.outlines with
  | .cff font => do
      let drawn ← (font.glyphOutline glyph).mapError .cff
      return some ⟨drawn.outline, drawn.advance, none⟩
  | .trueType outlines => do
      if ← (source.isMark outlines glyph).mapError .trueType then return none
      let outline ← (outlines.outline glyph).mapError .trueType
      let advance := (source.metrics.advance? glyph).getD 0
      return some ⟨outline, advance.toFloat, (source.metrics.bearing? glyph).map Int16.toFloat⟩

def decode (source : GlyphSource) (character : Char) (glyph : GlyphId) :
    Except FetchFault (Option CharacterGlyph) := do
  match ← source.shape glyph with
  | some shape => return some (← source.assemble character glyph shape)
  | none => return none

def isFiller (source : GlyphSource) (glyph : CharacterGlyph) : Bool :=
  source.settings.fillerHash = some glyph.hash

/-- The glyph of a character by its identifier, unless it is a placeholder. -/
def load (source : GlyphSource) (character : Char) (glyph : GlyphId) :
    Except FetchFault (Option CharacterGlyph) := do
  return (← source.decode character glyph).filter fun decoded => !source.isFiller decoded

def fetch (source : GlyphSource) (character : Char) : Except FetchFault (Option CharacterGlyph) :=
  match source.glyphId? character with
  | some glyph => source.load character glyph
  | none => .ok none

end GlyphSource

end Letterform
