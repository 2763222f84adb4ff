import Letterform.GlyphId
import Letterform.Table.Headers

/-!
The `hmtx` table: an advance and a left side bearing for each glyph. Glyphs after
the last advance share it and have a bearing only; where a bearing is missing too,
that of the last advance stands in.
-/

namespace Letterform

structure LongMetric where
  advance : UInt16
  bearing : Int16
  deriving DecidableEq, Repr

instance : Packed LongMetric :=
  Packed.through (fun metric => (metric.advance, metric.bearing)) (fun pair => ⟨pair.1, pair.2⟩)
    fun _ => rfl

structure HorizontalMetrics where
  metrics : List LongMetric
  bearings : List Int16
  deriving DecidableEq, Repr

namespace HorizontalMetrics

/-- Reads as many bearings as there are, up to one for each glyph without an advance. -/
def decoder (metricCount glyphCount : UInt16) : Decoder ReadError HorizontalMetrics := do
  let metrics ← Decoder.readList LongMetric metricCount.toNat
  let available := (← Decoder.rest).length / 2
  let bearings ← Decoder.readList Int16 (min (glyphCount.toNat - metricCount.toNat) available)
  return ⟨metrics, bearings⟩

def ofBytes (metricCount glyphCount : UInt16) (bytes : Bytes) :
    Except ReadError HorizontalMetrics :=
  (decoder metricCount glyphCount).decode bytes

def advance? (table : HorizontalMetrics) (glyph : GlyphId) : Option UInt16 :=
  (table.metrics[glyph.toNat]?.or table.metrics.getLast?).map LongMetric.advance

def bearing? (table : HorizontalMetrics) (glyph : GlyphId) : Option Int16 :=
  match table.metrics[glyph.toNat]? with
  | some metric => some metric.bearing
  | none =>
      table.bearings[glyph.toNat - table.metrics.length]?.or
        (table.metrics.getLast?.map LongMetric.bearing)

def encode (table : HorizontalMetrics) : Bytes :=
  Packed.encodeList table.metrics ++ Packed.encodeList table.bearings

end HorizontalMetrics

def FontFile.horizontalMetrics (file : FontFile) : Except ReadError HorizontalMetrics := do
  let glyphCount := (← file.maximumProfile).glyphCount
  let metricCount := (← file.horizontalHeader).metricCount
  HorizontalMetrics.ofBytes metricCount glyphCount (← file.table .hmtx)

end Letterform
