import Letterform.Bytes.Decoder
import Letterform.FontFile
import Letterform.Geometry.Point

/-!
The header tables: `head` for the whole font, `hhea` for horizontal layout and
`maxp` for the number of glyphs. A header that is cut short is refused as a whole.
-/

namespace Letterform

def Bytes.requireLength (bytes : Bytes) (least : Nat) : Except ReadError Unit :=
  if bytes.length < least then .error (.outOfBounds bytes.length) else .ok ()

def Decoder.readBox : Decoder ReadError (Box Int16) := do
  let xMin : Int16 ← Decoder.read Int16
  let yMin : Int16 ← Decoder.read Int16
  let xMax : Int16 ← Decoder.read Int16
  let yMax : Int16 ← Decoder.read Int16
  return ⟨xMin, yMin, xMax, yMax⟩

def Box.encode (box : Box Int16) : Bytes :=
  Packed.encodeList [box.xMin, box.yMin, box.xMax, box.yMax]

def versionOne : UInt32 := 0x00010000

/-! The `head` table. -/

structure FontHeader where
  revision : Fixed := .one
  flags : UInt16 := 0
  unitsPerEm : UInt16
  box : Box Int16 := ⟨0, 0, 0, 0⟩
  /-- 1 if glyph locations have four bytes each, 0 if they have two. -/
  locationFormat : Int16
  deriving DecidableEq, Repr

namespace FontHeader

def length : Nat := 54

def decoder : Decoder ReadError FontHeader := do
  Decoder.skip 4
  let revision : Fixed ← Decoder.read Fixed
  Decoder.skip 8
  let flags : UInt16 ← Decoder.read UInt16
  let unitsPerEm : UInt16 ← Decoder.read UInt16
  Decoder.skip 16
  let box ← Decoder.readBox
  Decoder.skip 6
  let locationFormat : Int16 ← Decoder.read Int16
  return { revision, flags, unitsPerEm, box, locationFormat }

def ofBytes (bytes : Bytes) : Except ReadError FontHeader := do
  bytes.requireLength length
  decoder.decode bytes

def hasLongLocations (header : FontHeader) : Bool := header.locationFormat = 1

def magicNumber : UInt32 := 0x5F0F3CF5

def encode (header : FontHeader) : Bytes :=
  Packed.encode versionOne ++ Packed.encode header.revision ++
    Packed.encodeList [(0 : UInt32), magicNumber] ++
    Packed.encodeList [header.flags, header.unitsPerEm] ++ List.replicate 16 0 ++
    header.box.encode ++
    Packed.encodeList [(0 : Int16), 8, 2, header.locationFormat, 0]

end FontHeader

/-! The `hhea` table. -/

structure HorizontalHeader where
  ascender : Int16 := 800
  descender : Int16 := -200
  lineGap : Int16 := 0
  advanceMax : UInt16 := 1000
  metricCount : UInt16
  deriving DecidableEq, Repr

namespace HorizontalHeader

def length : Nat := 36

def decoder : Decoder ReadError HorizontalHeader := do
  Decoder.skip 4
  let ascender : Int16 ← Decoder.read Int16
  let descender : Int16 ← Decoder.read Int16
  let lineGap : Int16 ← Decoder.read Int16
  let advanceMax : UInt16 ← Decoder.read UInt16
  Decoder.skip 22
  let metricCount : UInt16 ← Decoder.read UInt16
  return { ascender, descender, lineGap, advanceMax, metricCount }

def ofBytes (bytes : Bytes) : Except ReadError HorizontalHeader := do
  bytes.requireLength length
  decoder.decode bytes

def encode (header : HorizontalHeader) : Bytes :=
  Packed.encode versionOne ++
    Packed.encodeList [header.ascender, header.descender, header.lineGap] ++
    Packed.encode header.advanceMax ++
    Packed.encodeList [(0 : Int16), 0, 0, 1, 0, 0, 0, 0, 0, 0, 0] ++
    Packed.encode header.metricCount

end HorizontalHeader

/-! The `maxp` table. Fonts with CFF outlines use a short form without limits. -/

structure OutlineLimits where
  points : UInt16 := 0
  contours : UInt16 := 0
  componentDepth : UInt16 := 0
  deriving DecidableEq, Repr

structure MaximumProfile where
  version : UInt32
  glyphCount : UInt16
  limits : Option OutlineLimits
  deriving DecidableEq, Repr

namespace MaximumProfile

def limitsDecoder : Decoder ReadError OutlineLimits := do
  let points : UInt16 ← Decoder.read UInt16
  let contours : UInt16 ← Decoder.read UInt16
  Decoder.skip 20
  let componentDepth : UInt16 ← Decoder.read UInt16
  return { points, contours, componentDepth }

def decoder : Decoder ReadError MaximumProfile := do
  let version : UInt32 ← Decoder.read UInt32
  let glyphCount : UInt16 ← Decoder.read UInt16
  if version = versionOne then return ⟨version, glyphCount, some (← limitsDecoder)⟩
  else return ⟨version, glyphCount, none⟩

def ofBytes (bytes : Bytes) : Except ReadError MaximumProfile := do
  let version ← bytes.readAt UInt32 0
  bytes.requireLength (if version = versionOne then 32 else 6)
  decoder.decode bytes

def ofGlyphCount (glyphCount : UInt16) (trueType : Bool) : MaximumProfile :=
  if trueType then ⟨versionOne, glyphCount, some {}⟩ else ⟨0x00005000, glyphCount, none⟩

def encode (profile : MaximumProfile) : Bytes :=
  Packed.encode profile.version ++ Packed.encode profile.glyphCount ++
    profile.limits.elim [] fun limits =>
      Packed.encodeList [limits.points, limits.contours] ++ List.replicate 20 0 ++
        Packed.encode limits.componentDepth

end MaximumProfile

namespace FontFile

def header (file : FontFile) : Except ReadError FontHeader := do
  FontHeader.ofBytes (← file.table .head)

def horizontalHeader (file : FontFile) : Except ReadError HorizontalHeader := do
  HorizontalHeader.ofBytes (← file.table .hhea)

def maximumProfile (file : FontFile) : Except ReadError MaximumProfile := do
  MaximumProfile.ofBytes (← file.table .maxp)

end FontFile

end Letterform
