import Letterform.Table.Cmap
import Letterform.Table.HorizontalMetrics
import Letterform.TrueType.Locations

/-!
A small TrueType font. It has glyphs of every kind: simple and composite ones, two
that are empty, one that is tiny, one that matches points and one that contains
itself. Characters are mapped by differences, through an array of glyphs and, past
16 bits, by groups.
-/

namespace Letterform.Sample

open TrueType

def unitsPerEm : UInt16 := 1000

def square : List StoredPoint :=
  [⟨100, 0, true⟩, ⟨600, 0, true⟩, ⟨600, 700, true⟩, ⟨100, 700, true⟩]

def arch : List StoredPoint :=
  [⟨0, 0, true⟩, ⟨0, 400, false⟩, ⟨400, 400, false⟩, ⟨400, 0, true⟩]

def dot : List StoredPoint :=
  [⟨0, 0, true⟩, ⟨50, 0, true⟩, ⟨50, 50, true⟩, ⟨0, 50, true⟩]

/-- The glyphs in the order of their identifiers: the missing glyph, square, arch, both of
these, dot, space, an arch and a square that meet in a point, and one that contains itself. -/
def trueTypeGlyphs : List Bytes := [
  [],
  encodeContours [square],
  encodeContours [arch],
  encodeComponents ⟨100, 0, 900, 700⟩ [
    { glyph := ⟨1⟩, first := 0, second := 0 },
    { glyph := ⟨2⟩, first := 700, second := 0, scale := .uniform (.ofFloat 0.5) }],
  encodeContours [dot],
  [],
  encodeComponents ⟨0, 0, 400, 400⟩ [
    { glyph := ⟨2⟩, first := 0, second := 0 },
    { glyph := ⟨1⟩, first := 3, second := 0, matchesPoints := true }],
  encodeComponents ⟨0, 0, 0, 0⟩ [{ glyph := ⟨7⟩, first := 0, second := 0 }]]

def trueTypeSegments : List Cmap.Segment := [
  { start := 0x20, stop := 0x20, delta := 5 - 0x20 },
  { start := 0x2E, stop := 0x2E, delta := 4 - 0x2E },
  { start := 0x41, stop := 0x43, delta := -0x40 },
  { start := 0x45, stop := 0x46, delta := 6 - 0x45 },
  { start := 0x61, stop := 0x63, glyphs := some [1, 0, 2] }]

def trueTypeGroups : List Cmap.Group :=
  [⟨0x20, 0x20, 5⟩, ⟨0x41, 0x43, 1⟩, ⟨0x1F600, 0x1F600, 2⟩]

def trueTypeMetrics : HorizontalMetrics where
  metrics := [⟨500, 0⟩, ⟨700, 100⟩, ⟨500, 0⟩, ⟨1200, 100⟩]
  bearings := [0, 0, 0]

def trueTypeFont (format : LocationFormat) : Bytes :=
  let header : FontHeader := { unitsPerEm, locationFormat := format.number }
  let profile := MaximumProfile.ofGlyphCount (UInt16.ofNat trueTypeGlyphs.length) true
  (TableMap.ofList [
    (.head, header.encode),
    (.hhea, ({ metricCount := 4 } : HorizontalHeader).encode),
    (.maxp, profile.encode),
    (.hmtx, trueTypeMetrics.encode),
    (.cmap, Cmap.encode [
      ⟨Cmap.windowsPlatform, 1, Cmap.encodeSegments trueTypeSegments⟩,
      ⟨Cmap.windowsPlatform, 10, Cmap.encodeGroups trueTypeGroups⟩]),
    (.loca, Locations.encode format trueTypeGlyphs),
    (.glyf, trueTypeGlyphs.flatten)]).encode FontFile.trueTypeVersion

end Letterform.Sample
