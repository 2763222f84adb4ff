import Letterform.Cff.Fault
import Letterform.GlyphId
import Letterform.Search

/-!
FDSelect: which font DICT each glyph of a CID-keyed font uses. Format 0 lists one
per glyph; format 3 lists the first glyph of every run of glyphs that share one,
and a glyph after the last run.
-/

namespace Letterform.Cff

structure GlyphRun where
  first : UInt16
  font : UInt8
  deriving DecidableEq, Repr

instance : Packed GlyphRun :=
  Packed.through (fun run => (run.first, run.font)) (fun pair => ⟨pair.1, pair.2⟩) fun _ => rfl

inductive FontSelect
  | perGlyph (fonts : List UInt8)
  | runs (starts : List GlyphRun) (sentinel : UInt16)
  deriving DecidableEq, Repr

namespace FontSelect

def decoder (glyphCount : UInt16) : Decoder Fault FontSelect := do
  let format : UInt8 ← Decoder.read UInt8
  if format = 0 then
    return .perGlyph (← Decoder.readList UInt8 glyphCount.toNat)
  else if format = 3 then
    let count : UInt16 ← Decoder.read UInt16
    let runs : List GlyphRun ← Decoder.readList GlyphRun count.toNat
    let sentinel : UInt16 ← Decoder.read UInt16
    return .runs runs sentinel
  else Decoder.fail (.fontSelectFormat format)

/-- The font of a glyph: in format 3, that of the last run that starts at or before it. -/
def font? (select : FontSelect) (glyph : GlyphId) : Option UInt8 :=
  match select with
  | .perGlyph fonts => fonts[glyph.toNat]?
  | .runs starts sentinel =>
      if sentinel ≤ glyph.value then none
      else
        let started := partitionPoint
          (fun position => starts[position]?.any fun run => run.first ≤ glyph.value) 0 starts.length
        if started = 0 then none else starts[started - 1]?.map GlyphRun.font

end FontSelect

end Letterform.Cff
