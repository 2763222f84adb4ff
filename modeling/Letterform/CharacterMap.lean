import Letterform.Table.Cmap

/-!
Which glyph stands for a character. Of the subtables of `cmap` two are used: the first
segment map for an encoding of the Basic Multilingual Plane, and the first group map for
an encoding of all of Unicode. The second is asked about what the first leaves open.
A character that is mapped to glyph 0 has no glyph.
-/

namespace Letterform

namespace Cmap.EncodingRecord

def isBasicUnicode (record : EncodingRecord) : Bool :=
  if record.platform = windowsPlatform then record.encoding = 1
  else record.platform = unicodePlatform && record.encoding ≤ 3

def isFullUnicode (record : EncodingRecord) : Bool :=
  if record.platform = windowsPlatform then record.encoding = 10
  else record.platform = unicodePlatform && (record.encoding = 4 || record.encoding = 6)

end Cmap.EncodingRecord

structure CharacterMap where
  basic : Option Cmap.SegmentMap := none
  full : Option Cmap.GroupMap := none
  deriving DecidableEq, Repr

namespace CharacterMap

def basicMap? (cmap : Cmap) (record : Cmap.EncodingRecord) : Option Cmap.SegmentMap :=
  if record.isBasicUnicode then
    match cmap.subtable record with
    | .ok (.segments map) => some map
    | _ => none
  else none

def fullMap? (cmap : Cmap) (record : Cmap.EncodingRecord) : Option Cmap.GroupMap :=
  if record.isFullUnicode then
    match cmap.subtable record with
    | .ok (.groups map) => some map
    | _ => none
  else none

def ofCmap (cmap : Cmap) : CharacterMap where
  basic := cmap.records.findSome? (basicMap? cmap)
  full := cmap.records.findSome? (fullMap? cmap)

def hasMap (map : CharacterMap) : Bool := map.basic.isSome || map.full.isSome

def basicGlyph? (map : CharacterMap) (code : UInt32) : Option GlyphId :=
  (map.basic.bind fun segments => segments.glyph? code).filter fun glyph => !glyph.isNotdef

def fullGlyph? (map : CharacterMap) (code : UInt32) : Option GlyphId :=
  (map.full.bind fun groups => groups.glyph? code).filter fun glyph => !glyph.isNotdef

def glyph? (map : CharacterMap) (code : UInt32) : Option GlyphId :=
  (map.basicGlyph? code).or (map.fullGlyph? code)

end CharacterMap

def FontFile.characterMap (file : FontFile) : CharacterMap :=
  match file.cmap with
  | .ok cmap => .ofCmap cmap
  | .error _ => {}

end Letterform
