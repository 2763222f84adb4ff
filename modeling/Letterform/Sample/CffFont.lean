import Letterform.Cff.Font
import Letterform.Table.Cmap
import Letterform.Table.HorizontalMetrics

/-!
Two small CFF fonts. The first has one part, with a global and a local subroutine,
hints and a flex; the second is CID-keyed and has two parts with widths of their
own.
-/

namespace Letterform.Sample

open Cff (Index)
open Cff.Dict (Item)

def dictEntry (operands : List Item) (operator : Item) : List Item := operands ++ [operator]

def charstringStep (operands : List Int32) (operator : Charstring.Item) : List Charstring.Item :=
  operands.map .integer ++ [operator]

/-! The operators that the fonts use. -/

def charsetOperator : Item := .operator 15
def charstringsOperator : Item := .operator 17
def privateOperator : Item := .operator 18
def subroutinesOperator : Item := .operator 19
def defaultWidthOperator : Item := .operator 20
def nominalWidthOperator : Item := .operator 21
def blueValuesOperator : Item := .operator 6
def blueScaleOperator : Item := .escaped 9
def collectionOperator : Item := .escaped 30
def cidCountOperator : Item := .escaped 34
def fontArrayOperator : Item := .escaped 36
def fontSelectOperator : Item := .escaped 37

def moveTo : Charstring.Item := .operator 21
def lineTo : Charstring.Item := .operator 5
def horizontalLineTo : Charstring.Item := .operator 6
def curveTo : Charstring.Item := .operator 8
def flex : Charstring.Item := .escaped 35
def horizontalStem : Charstring.Item := .operator 1
def verticalStem : Charstring.Item := .operator 3
def hintMask : Charstring.Item := .operator 19
def callGlobal : Charstring.Item := .operator 29
def callLocal : Charstring.Item := .operator 10
def returnToCaller : Charstring.Item := .operator 11
def endCharacter : Charstring.Item := .operator 14

def firstSubroutine : Int32 := -107

/-! The header of the table, and where its parts lie. -/

def cffHeader : Bytes := [1, 0, 4, 4]

def layout : (offset : Nat) → List Bytes → List Nat
  | _, [] => []
  | offset, part :: parts => offset :: layout (offset + part.length) parts

def offsetItem (offset : Nat) : Item := .long (Int32.ofNat offset)

/-! The font with one part. -/

def cffFontName : String := "TestCFF"
def defaultWidth : Int32 := 500
def nominalWidth : Int32 := 600

/-- The missing glyph, a square with a width of its own, an arch drawn by a global
subroutine, a hinted line drawn by a local one, and a flex. -/
def cffGlyphs : List Bytes := [
  Charstring.encode [endCharacter],
  Charstring.encode (charstringStep [100, 100, 0] moveTo ++
    charstringStep [500, 700, -500] horizontalLineTo ++ [endCharacter]),
  Charstring.encode (charstringStep [0, 0] moveTo ++
    charstringStep [firstSubroutine] callGlobal ++ [endCharacter]),
  Charstring.encode (charstringStep [20, 30] horizontalStem ++
    charstringStep [40, 50, 60, 70] verticalStem ++ [hintMask, .byte 0xE0] ++
    charstringStep [10, 10] moveTo ++ charstringStep [firstSubroutine] callLocal ++
    [endCharacter]),
  Charstring.encode (charstringStep [0, 0] moveTo ++
    charstringStep [100, 50, 100, 0, 100, -50, 100, -50, 100, 0, 100, 50, 50] flex ++
    [endCharacter])]

def cffTopDict (charstrings privateLength privateOffset : Nat) : Bytes :=
  Cff.Dict.encode (dictEntry [offsetItem charstrings] charstringsOperator ++
    dictEntry [offsetItem privateLength, offsetItem privateOffset] privateOperator)

def cffPrivateDict (subroutines : Nat) : Bytes :=
  Cff.Dict.encode (
    dictEntry [.integer (-20), .integer 0, .integer 700, .integer 20] blueValuesOperator ++
    dictEntry [.real "0.0375"] blueScaleOperator ++
    dictEntry [.integer defaultWidth] defaultWidthOperator ++
    dictEntry [.integer nominalWidth] nominalWidthOperator ++
    dictEntry [offsetItem subroutines] subroutinesOperator)

def cffTable : Bytes :=
  let privateLength := (cffPrivateDict 0).length
  let globals := Index.encode [Charstring.encode
    (charstringStep [0, 400, 400, 0, 0, -400] curveTo ++ [returnToCaller])]
  let locals := Index.encode [Charstring.encode
    (charstringStep [200, 300] lineTo ++ [returnToCaller])]
  let parts (topDict : Bytes) := [cffHeader, Index.encode [cffFontName.toUTF8.toList],
    Index.encode [topDict], Index.encode [], globals, Index.encode cffGlyphs,
    cffPrivateDict privateLength, locals]
  let starts := layout 0 (parts (cffTopDict 0 0 0))
  (parts (cffTopDict (starts.getD 5 0) privateLength (starts.getD 6 0))).flatten

def cffFile (table : Bytes) (glyphCount lastCode platform encoding : UInt16) : Bytes :=
  let header : FontHeader := { unitsPerEm := 1000, locationFormat := 0 }
  let metrics : HorizontalMetrics :=
    ⟨[⟨500, 0⟩], List.replicate (glyphCount.toNat - 1) 0⟩
  (TableMap.ofList [
    (.cff, table),
    (.head, header.encode),
    (.hhea, ({ metricCount := 1 } : HorizontalHeader).encode),
    (.maxp, (MaximumProfile.ofGlyphCount glyphCount false).encode),
    (.hmtx, metrics.encode),
    (.cmap, Cmap.encode [⟨platform, encoding,
      Cmap.encodeSegments [{ start := 0x41, stop := lastCode, delta := -0x40 }]⟩])]).encode
    FontFile.cffVersion

def cffFont : Bytes :=
  cffFile cffTable (UInt16.ofNat cffGlyphs.length) 0x44 Cmap.unicodePlatform 3

/-! The CID-keyed font. -/

def cidWidths : List (Int32 × Int32) := [(400, 300), (900, 1000)]

def cidGlyphs : List Bytes := [
  Charstring.encode [endCharacter],
  Charstring.encode (charstringStep [50, 0, 0] moveTo ++ charstringStep [100, 100] lineTo ++
    [endCharacter]),
  Charstring.encode (charstringStep [0, 0] moveTo ++
    charstringStep [firstSubroutine] callLocal ++ [endCharacter])]

def cidTopDict (charstrings fontArray fontSelect : Nat) : Bytes :=
  Cff.Dict.encode (
    dictEntry [.integer 391, .integer 392, .integer 0] collectionOperator ++
    dictEntry [.integer 3] cidCountOperator ++
    dictEntry [offsetItem charstrings] charstringsOperator ++
    dictEntry [offsetItem fontArray] fontArrayOperator ++
    dictEntry [offsetItem fontSelect] fontSelectOperator)

def cidFontSelect : Bytes :=
  [3] ++ Bytes.ofNumber 2 2 ++ Packed.encodeList [(⟨0, 0⟩ : Cff.GlyphRun), ⟨2, 1⟩] ++
    Bytes.ofNumber 2 3

def cidFontDict (privateLength privateOffset : Nat) : Bytes :=
  Cff.Dict.encode
    (dictEntry [offsetItem privateLength, offsetItem privateOffset] privateOperator)

def cidPrivateDict (widths : Int32 × Int32) (subroutines : Option Nat) : Bytes :=
  Cff.Dict.encode (dictEntry [.integer widths.1] defaultWidthOperator ++
    dictEntry [.integer widths.2] nominalWidthOperator ++
    subroutines.elim [] fun offset => dictEntry [offsetItem offset] subroutinesOperator)

def cidTable : Bytes :=
  let firstPrivate := cidPrivateDict (cidWidths.getD 0 (0, 0)) none
  let secondLength := (cidPrivateDict (cidWidths.getD 1 (0, 0)) (some 0)).length
  let secondPrivate := cidPrivateDict (cidWidths.getD 1 (0, 0)) (some secondLength)
  let locals := Index.encode [Charstring.encode
    (charstringStep [100, 0] lineTo ++ [returnToCaller])]
  let parts (topDict : Bytes) (fontDicts : List Bytes) := [cffHeader,
    Index.encode ["TestCID".toUTF8.toList], Index.encode [topDict],
    Index.encode ["Adobe".toUTF8.toList, "Identity".toUTF8.toList], Index.encode [],
    Index.encode cidGlyphs, cidFontSelect, Index.encode fontDicts, firstPrivate, secondPrivate,
    locals]
  let starts := layout 0 (parts (cidTopDict 0 0 0) [cidFontDict 0 0, cidFontDict 0 0])
  (parts (cidTopDict (starts.getD 5 0) (starts.getD 7 0) (starts.getD 6 0))
    [cidFontDict firstPrivate.length (starts.getD 8 0),
      cidFontDict secondLength (starts.getD 9 0)]).flatten

def cidFont : Bytes :=
  cffFile cidTable (UInt16.ofNat cidGlyphs.length) 0x42 Cmap.windowsPlatform 1

end Letterform.Sample
