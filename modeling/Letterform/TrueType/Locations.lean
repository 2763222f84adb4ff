import Letterform.TrueType.Glyph

/-!
The `loca` table: where each glyph lies in the `glyf` table. A glyph ends where
the next one starts, and an empty one has no bytes at all. Short tables hold half
of each offset.
-/

namespace Letterform.TrueType

inductive LocationFormat
  | short
  | long
  deriving DecidableEq, Repr

namespace LocationFormat

def ofLong (isLong : Bool) : LocationFormat := if isLong then .long else .short

def number : LocationFormat → Int16
  | .short => 0
  | .long => 1

def width : LocationFormat → Nat
  | .short => 2
  | .long => 4

end LocationFormat

structure Locations where
  format : LocationFormat
  offsets : List UInt32
  deriving DecidableEq, Repr

namespace Locations

def ofBytes (format : LocationFormat) (bytes : Bytes) : Locations where
  format
  offsets := match format with
    | .short => (Packed.decodeList UInt16 (bytes.length / 2) bytes).map fun half =>
        half.toUInt32 * 2
    | .long => Packed.decodeList UInt32 (bytes.length / 4) bytes

def size (locations : Locations) : Nat := locations.offsets.length - 1

def isEmpty (locations : Locations) : Bool := locations.size = 0

def offset (locations : Locations) (position : Nat) : Except ReadError Nat :=
  match locations.offsets[position]? with
  | some offset => .ok offset.toNat
  | none => .error (.outOfBounds (position * locations.format.width))

def bytes? (locations : Locations) (glyphs : Bytes) (glyph : GlyphId) :
    Except ReadError (Option Bytes) := do
  let start ← locations.offset glyph.toNat
  let stop ← locations.offset (glyph.toNat + 1)
  if start = stop then return none
  match glyphs.slice? start stop with
  | some bytes => return some bytes
  | none => throw (.outOfBounds start)

def glyph? (locations : Locations) (glyphs : Bytes) (glyph : GlyphId) :
    Except ReadError (Option Glyph) := do
  (← locations.bytes? glyphs glyph).mapM Glyph.ofBytes

/-! Writing. -/

def LocationFormat.encode (format : LocationFormat) (offset : Nat) : Bytes :=
  match format with
  | .short => Bytes.ofNumber 2 (offset / 2)
  | .long => Bytes.ofNumber 4 offset

def starts : (offset : Nat) → List Bytes → List Nat
  | offset, [] => [offset]
  | offset, glyph :: glyphs => offset :: starts (offset + glyph.length) glyphs

def encode (format : LocationFormat) (glyphs : List Bytes) : Bytes :=
  (starts 0 glyphs).flatMap (LocationFormat.encode format)

end Locations

end Letterform.TrueType

namespace Letterform.FontFile

open TrueType (LocationFormat Locations)

def locationFormat (file : FontFile) : Except ReadError LocationFormat := do
  return .ofLong (← file.header).hasLongLocations

def locations (file : FontFile) (format : Option LocationFormat := none) :
    Except ReadError Locations := do
  let format ← format.elim file.locationFormat .ok
  return .ofBytes format (← file.table .loca)

def glyphs (file : FontFile) : Except ReadError Bytes := file.table .glyf

end Letterform.FontFile
