import Letterform.Cff.Dict.PrivateDict
import Letterform.Cff.Dict.TopDict
import Letterform.Cff.FontSelect
import Letterform.Charstring.Evaluation
import Letterform.FontFile

/-!
The `CFF ` table. After a short header come four INDEXes: names, Top DICTs, strings
and global subroutines. The first Top DICT describes the font and says where the
charstrings are. A CID-keyed font has parts, each with a Font DICT of its own.
-/

namespace Letterform.Cff

structure Table where
  bytes : Bytes
  major : UInt8
  minor : UInt8
  headerSize : UInt8
  offsetSize : UInt8
  deriving DecidableEq, Repr

namespace Table

def headerLength : Nat := 4

def decoder (bytes : Bytes) : Decoder ReadError Table := do
  let major : UInt8 ← Decoder.read UInt8
  let minor : UInt8 ← Decoder.read UInt8
  let headerSize : UInt8 ← Decoder.read UInt8
  let offsetSize : UInt8 ← Decoder.read UInt8
  return ⟨bytes, major, minor, headerSize, offsetSize⟩

def ofBytes (bytes : Bytes) : Except ReadError Table :=
  if bytes.length < headerLength then .error (.outOfBounds bytes.length)
  else do
    let table ← (decoder bytes).decode bytes
    if table.major ≠ 1 then throw (.invalidFormat table.major.toNat)
    if table.headerSize.toNat < headerLength || bytes.length < table.headerSize.toNat then
      throw (.malformed .headerSize)
    return table

def content (table : Table) : Bytes := table.bytes.drop table.headerSize.toNat

end Table

structure Font where
  table : Bytes
  names : Index
  strings : Index
  globalSubroutines : Index
  topDict : TopDict
  charstrings : Index
  fontDicts : Option Index
  fontSelect : Option FontSelect

def Index.split (bytes : Bytes) : Except Fault (Index × Bytes) := do
  let index ← Index.ofBytes bytes
  let rest ← liftRead (bytes.readFrom (← index.byteLength))
  return (index, rest)

def Index.at (table : Bytes) (offset : Nat) : Except Fault Index := do
  Index.ofBytes (← liftRead (table.readFrom offset))

structure GlyphProgram where
  charstring : Bytes
  subroutines : Charstring.Subroutines
  privateDict : PrivateDict

namespace Font

def parts (table : Bytes) (topDict : TopDict) (glyphCount : Nat) :
    Except Fault (Option Index × Option FontSelect) := do
  if !topDict.isCid then return (none, none)
  let fontDicts ← topDict.fontArrayOffset.mapM (Index.at table)
  let fontSelect ← topDict.fontSelectOffset.mapM fun offset => do
    let bytes ← liftRead (table.readFrom offset)
    (FontSelect.decoder (UInt16.ofNat (min glyphCount 0xFFFF))).decode bytes
  return (fontDicts, fontSelect)

def ofTable (table : Table) : Except Fault Font := do
  let (names, rest) ← Index.split table.content
  let (topDicts, rest) ← Index.split rest
  let (strings, rest) ← Index.split rest
  let globalSubroutines ← Index.ofBytes rest
  let topDict ← TopDict.ofBytes (← topDicts.get 0)
  let some charstringsOffset := topDict.charstringsOffset | throw .missingCharstrings
  let charstrings ← Index.at table.bytes charstringsOffset
  let (fontDicts, fontSelect) ← parts table.bytes topDict charstrings.size
  return {
    table := table.bytes
    names, strings, globalSubroutines, topDict, charstrings, fontDicts, fontSelect }

def string? (font : Font) (id : StringId) : Option Latin1 :=
  match id.source with
  | .standard name => some (Latin1.ofString name)
  | .font entry => (font.strings.get entry).toOption.map Latin1.mk

def name? (font : Font) : Option Latin1 := (font.names.get 0).toOption.map Latin1.mk

def glyphCount (font : Font) : Nat := font.charstrings.size

def partCount (font : Font) : Nat := font.fontDicts.elim 1 Index.size

def part (font : Font) (glyph : GlyphId) : Nat :=
  match font.fontSelect.bind fun select => select.font? glyph with
  | some part => part.toNat
  | none => 0

def privateRange (font : Font) (glyph : GlyphId) : Except Fault Dict.Range :=
  match font.fontDicts with
  | some fontDicts => do
      return (← FontDict.ofBytes (← fontDicts.get (font.part glyph))).privateRange
  | none => match font.topDict.privateRange with
    | some range => .ok range
    | none => .error .missingPrivateDict

def program (font : Font) (glyph : GlyphId) : Except Fault GlyphProgram := do
  let charstring ← font.charstrings.get glyph.toNat
  let privateDict ← PrivateDict.ofTable font.table (← font.privateRange glyph)
  let locals ← privateDict.subroutinesOffset.mapM (Index.at font.table)
  return {
    charstring
    subroutines := {
      charstringType := font.topDict.charstringType
      globals := font.globalSubroutines
      locals }
    privateDict }

end Font

namespace GlyphProgram

def evaluate (program : GlyphProgram) : Charstring.Evaluation :=
  Charstring.evaluate program.subroutines program.charstring

/-- A width in the charstring is relative to the nominal width of the Private DICT. -/
def advance (program : GlyphProgram) (summary : Charstring.Summary) : Float :=
  match summary.width with
  | some difference => program.privateDict.nominalWidth + difference.toFloat
  | none => program.privateDict.defaultWidth

end GlyphProgram

end Letterform.Cff

namespace Letterform.FontFile

def cffTable (file : FontFile) : Except ReadError Cff.Table := do
  Cff.Table.ofBytes (← file.table .cff)

def cffFont (file : FontFile) : Except Cff.Fault Cff.Font := do
  Cff.Font.ofTable (← Cff.liftRead file.cffTable)

end Letterform.FontFile
