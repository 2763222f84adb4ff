import Letterform.Bytes.Decoder
import Letterform.FontFile
import Letterform.GlyphId
import Letterform.Search

/-!
The `cmap` table: mappings from character codes to glyphs, each for one platform
and encoding. Two formats map codes: format 4 by segments of 16-bit codes and
format 12 by groups of 32-bit codes. Other formats are told apart and map nothing.
-/

namespace Letterform

namespace Cmap

/-! Format 4. A segment maps the codes up to its end that no earlier segment reaches. It
adds a difference to the code, or to what it finds in an array of glyphs; where that is
stands relative to the place of the segment's own range offset. -/

structure SegmentMap where
  ends : List UInt16
  starts : List UInt16
  deltas : List Int16
  rangeOffsets : List UInt16
  bytes : Bytes
  deriving DecidableEq, Repr

namespace SegmentMap

def decoder (bytes : Bytes) : Decoder ReadError SegmentMap := do
  Decoder.skip 6
  let doubleCount : UInt16 ← Decoder.read UInt16
  let count := doubleCount.toNat / 2
  Decoder.skip 6
  let ends ← Decoder.readList UInt16 count
  Decoder.skip 2
  let starts ← Decoder.readList UInt16 count
  let deltas ← Decoder.readList Int16 count
  let rangeOffsets ← Decoder.readList UInt16 count
  return { ends, starts, deltas, rangeOffsets, bytes }

def endsOffset : Nat := 14

def rangeOffsetPosition (segments : SegmentMap) (index : Nat) : Nat :=
  endsOffset + 6 * segments.ends.length + 2 + 2 * index

def addDelta (value : UInt16) (delta : Int16) : GlyphId := ⟨value + delta.toUInt16⟩

def glyphIn? (segments : SegmentMap) (index : Nat) (start code : UInt16) : Option GlyphId := do
  let delta ← segments.deltas[index]?
  let rangeOffset ← segments.rangeOffsets[index]?
  if rangeOffset = 0 then return addDelta code delta
  let position := segments.rangeOffsetPosition index + rangeOffset.toNat + 2 * (code - start).toNat
  let entry ← (segments.bytes.readAt UInt16 position).toOption
  if entry = 0 then none else return addDelta entry delta

def segmentFor (segments : SegmentMap) (code : UInt16) : Nat :=
  partitionPoint (fun index => segments.ends[index]?.any fun last => last < code)
    0 segments.ends.length

def glyph? (segments : SegmentMap) (code : UInt32) : Option GlyphId := do
  if code.toNat ≤ 0xFFFF then
    let code := code.toUInt16
    let index := segments.segmentFor code
    let start ← segments.starts[index]?
    if code < start then none else segments.glyphIn? index start code
  else none

end SegmentMap

/-! Format 12. A group maps consecutive codes to consecutive glyphs. -/

structure Group where
  start : UInt32
  stop : UInt32
  glyph : UInt32
  deriving DecidableEq, Repr

instance : Packed Group :=
  Packed.through (fun group => (group.start, group.stop, group.glyph))
    (fun fields => ⟨fields.1, fields.2.1, fields.2.2⟩) fun _ => rfl

def Group.glyphAt? (group : Group) (distance : Nat) : Option GlyphId :=
  let glyph := group.glyph.toNat + distance
  if glyph ≤ 0xFFFF then some ⟨UInt16.ofNat glyph⟩ else none

structure GroupMap where
  groups : List Group
  deriving DecidableEq, Repr

namespace GroupMap

def decoder : Decoder ReadError GroupMap := do
  Decoder.skip 12
  let count : UInt32 ← Decoder.read UInt32
  return ⟨← Decoder.readList Group count.toNat⟩

/-- Looks through groups in the order of their starts, up to the first that starts after the
code. -/
def glyphIn? (code : UInt32) : List Group → Option GlyphId
  | [] => none
  | group :: groups =>
      if code < group.start then none
      else if code ≤ group.stop then group.glyphAt? (code.toNat - group.start.toNat)
      else glyphIn? code groups

def glyph? (map : GroupMap) (code : UInt32) : Option GlyphId := glyphIn? code map.groups

end GroupMap

/-! Subtables. -/

inductive Subtable
  | segments (map : SegmentMap)
  | groups (map : GroupMap)
  | other (format : UInt16)
  deriving DecidableEq, Repr

namespace Subtable

def format : Subtable → UInt16
  | .segments _ => 4
  | .groups _ => 12
  | .other format => format

def ofBytes (bytes : Bytes) : Except ReadError Subtable := do
  let format ← bytes.readAt UInt16 0
  if format = 4 then return .segments (← (SegmentMap.decoder bytes).decode bytes)
  else if format = 12 then return .groups (← GroupMap.decoder.decode bytes)
  else return .other format

def glyph? (subtable : Subtable) (code : UInt32) : Option GlyphId :=
  match subtable with
  | .segments map => map.glyph? code
  | .groups map => map.glyph? code
  | .other _ => none

end Subtable

structure EncodingRecord where
  platform : UInt16
  encoding : UInt16
  offset : UInt32
  deriving DecidableEq, Repr

instance : Packed EncodingRecord :=
  Packed.through (fun record => (record.platform, record.encoding, record.offset))
    (fun fields => ⟨fields.1, fields.2.1, fields.2.2⟩) fun _ => rfl

end Cmap

structure Cmap where
  version : UInt16
  records : List Cmap.EncodingRecord
  bytes : Bytes
  deriving DecidableEq, Repr

namespace Cmap

/-! Platforms. -/

def unicodePlatform : UInt16 := 0
def macintoshPlatform : UInt16 := 1
def windowsPlatform : UInt16 := 3

def decoder (bytes : Bytes) : Decoder ReadError Cmap := do
  let version : UInt16 ← Decoder.read UInt16
  let count : UInt16 ← Decoder.read UInt16
  return { version, records := ← Decoder.readList EncodingRecord count.toNat, bytes }

def ofBytes (bytes : Bytes) : Except ReadError Cmap := (decoder bytes).decode bytes

def subtable (table : Cmap) (record : EncodingRecord) : Except ReadError Subtable := do
  Subtable.ofBytes (← table.bytes.readFrom record.offset.toNat)

def glyph? (table : Cmap) (code : UInt32) : Option GlyphId :=
  table.records.findSome? fun record => do (← (table.subtable record).toOption).glyph? code

/-! Writing. -/

structure Segment where
  start : UInt16
  stop : UInt16
  delta : Int16 := 0
  glyphs : Option (List UInt16) := none
  deriving DecidableEq, Repr

def Segment.final : Segment := { start := 0xFFFF, stop := 0xFFFF, delta := 1 }

def rangeOffsets : (arraySize : Nat) → List Segment → List UInt16
  | _, [] => []
  | arraySize, segment :: segments => match segment.glyphs with
    | some glyphs =>
        UInt16.ofNat (2 * (segments.length + 1) + 2 * arraySize) ::
          rangeOffsets (arraySize + glyphs.length) segments
    | none => 0 :: rangeOffsets arraySize segments

/-- A subtable of format 4 with the final segment added. The three numbers that speed up a
search are left zero. -/
def encodeSegments (segments : List Segment) : Bytes :=
  let segments := segments ++ [Segment.final]
  let body := Bytes.ofNumber 2 0 ++ Bytes.ofNumber 2 (2 * segments.length) ++
    List.replicate 6 0 ++ Packed.encodeList (segments.map Segment.stop) ++ [0, 0] ++
    Packed.encodeList (segments.map Segment.start) ++
    Packed.encodeList (segments.map Segment.delta) ++
    Packed.encodeList (rangeOffsets 0 segments) ++
    Packed.encodeList (segments.flatMap fun segment => segment.glyphs.getD [])
  Bytes.ofNumber 2 4 ++ Bytes.ofNumber 2 (4 + body.length) ++ body

def encodeGroups (groups : List Group) : Bytes :=
  Bytes.ofNumber 2 12 ++ [0, 0] ++
    Bytes.ofNumber 4 (16 + Packed.width Group * groups.length) ++ Bytes.ofNumber 4 0 ++
    Bytes.ofNumber 4 groups.length ++ Packed.encodeList groups

structure EncodedSubtable where
  platform : UInt16
  encoding : UInt16
  bytes : Bytes
  deriving DecidableEq, Repr

def recordsFrom : (offset : Nat) → List EncodedSubtable → List EncodingRecord
  | _, [] => []
  | offset, subtable :: subtables =>
      ⟨subtable.platform, subtable.encoding, UInt32.ofNat offset⟩ ::
        recordsFrom (offset + subtable.bytes.length) subtables

def encode (subtables : List EncodedSubtable) : Bytes :=
  let start := 4 + Packed.width EncodingRecord * subtables.length
  [0, 0] ++ Bytes.ofNumber 2 subtables.length ++
    Packed.encodeList (recordsFrom start subtables) ++
    subtables.flatMap EncodedSubtable.bytes

end Cmap

def FontFile.cmap (file : FontFile) : Except ReadError Cmap := do
  Cmap.ofBytes (← file.table .cmap)

end Letterform
