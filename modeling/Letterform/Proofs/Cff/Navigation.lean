import Letterform.Proofs.Cff.Index

/-!
Where the structures of a CFF table are found. After the header the INDEXes follow one another,
each at the end of those before it, and the first Top DICT says where in the table the
charstrings are. So a table that is written from its parts shows all of them, however long
each of them is.
-/

namespace Letterform.Cff

structure ObjectList where
  offsetSize : Nat
  objects : List Bytes

namespace ObjectList

def encode (list : ObjectList) : Bytes := Index.encodeWith list.offsetSize list.objects

def IsValid (list : ObjectList) : Prop := Index.Fits list.offsetSize list.objects

theorem exists_split {list : ObjectList} (valid : list.IsValid) (behind : Bytes) :
    ∃ index, Index.split (list.encode ++ behind) = .ok (index, behind) ∧
      index.Holds list.objects :=
  Index.exists_split_encodeWith valid behind

theorem exists_ofBytes {list : ObjectList} (valid : list.IsValid) (behind : Bytes) :
    ∃ index, Index.ofBytes (list.encode ++ behind) = .ok index ∧ index.Holds list.objects := by
  rcases Index.exists_ofBytes_encodeWith valid behind with ⟨index, read, holds, -⟩
  exact ⟨index, read, holds⟩

end ObjectList

structure TableParts where
  minor : UInt8
  offsetSize : UInt8
  filler : Bytes
  names : ObjectList
  topDicts : ObjectList
  strings : ObjectList
  globalSubroutines : ObjectList
  following : Bytes

namespace TableParts

def headerSize (parts : TableParts) : Nat := 4 + parts.filler.length

def header (parts : TableParts) : Bytes :=
  [1, parts.minor, UInt8.ofNat parts.headerSize, parts.offsetSize] ++ parts.filler

def content (parts : TableParts) : Bytes :=
  parts.names.encode ++ (parts.topDicts.encode ++ (parts.strings.encode ++
    (parts.globalSubroutines.encode ++ parts.following)))

def encode (parts : TableParts) : Bytes := parts.header ++ parts.content

structure IsValid (parts : TableParts) : Prop where
  header : parts.headerSize ≤ 255
  names : parts.names.IsValid
  topDicts : parts.topDicts.IsValid
  strings : parts.strings.IsValid
  globalSubroutines : parts.globalSubroutines.IsValid

def table (parts : TableParts) : Table where
  bytes := parts.encode
  major := 1
  minor := parts.minor
  headerSize := UInt8.ofNat parts.headerSize
  offsetSize := parts.offsetSize

variable {parts : TableParts}

theorem length_header (parts : TableParts) : parts.header.length = parts.headerSize :=
  List.length_append

theorem toNat_headerSize (valid : parts.IsValid) :
    (UInt8.ofNat parts.headerSize).toNat = parts.headerSize :=
  UInt8.toNat_ofNat_of_lt' (Nat.lt_succ_of_le valid.header)

theorem decode_encode (parts : TableParts) :
    (Table.decoder parts.encode).decode parts.encode = .ok parts.table := by
  have byte := Decoder.Reads.byte
  have fields : (Table.decoder parts.encode).Reads
      ([1] ++ ([parts.minor] ++ ([UInt8.ofNat parts.headerSize] ++ ([parts.offsetSize] ++ []))))
      parts.table :=
    (byte 1).bind ((byte _).bind ((byte _).bind ((byte _).bind (.pure _))))
  exact congrArg Prod.fst (fields (parts.filler ++ parts.content) 0)

theorem ofBytes_encode (valid : parts.IsValid) : Table.ofBytes parts.encode = .ok parts.table := by
  have fields : Table.headerLength ≤ parts.headerSize := Nat.le_add_right _ _
  have whole : parts.headerSize ≤ parts.encode.length := by
    rw [encode, List.length_append, length_header]
    exact Nat.le_add_right _ _
  have inside : ¬(parts.table.headerSize.toNat < Table.headerLength ||
      parts.encode.length < parts.table.headerSize.toNat) = true := by
    rw [table, toNat_headerSize valid, Bool.or_eq_true, decide_eq_true_eq, decide_eq_true_eq]
    exact not_or.mpr ⟨Nat.not_lt.mpr fields, Nat.not_lt.mpr whole⟩
  have version : ¬parts.table.major ≠ 1 := not_not_intro rfl
  rw [Table.ofBytes, if_neg (Nat.not_lt.mpr (Nat.le_trans fields whole)), decode_encode]
  simp only [bind, Except.bind, if_neg version, if_neg inside]
  rfl

theorem content_table (valid : parts.IsValid) : parts.table.content = parts.content := by
  rw [Table.content, table, toNat_headerSize valid, encode, ← length_header, List.drop_left]

end TableParts

theorem StringId.source_of_le (id : StringId) (own : standardStringCount ≤ id.value.toNat) :
    id.source = .font (id.value.toNat - standardStringCount) := by
  have beyond : standardStrings[id.value.toNat]? = none :=
    Array.getElem?_eq_none (Nat.le_trans (Nat.le_of_eq size_standardStrings) own)
  unfold source
  rw [beyond]

namespace Font

theorem name?_of_holds {font : Font} {names : List Bytes} (holds : font.names.Holds names) :
    font.name? = names.head?.map Latin1.mk := by
  rw [name?, holds.get_eq, List.head?_eq_getElem?]

theorem string?_of_holds {font : Font} {strings : List Bytes} (holds : font.strings.Holds strings)
    {id : StringId} (own : standardStringCount ≤ id.value.toNat) :
    font.string? id = strings[id.value.toNat - standardStringCount]?.map Latin1.mk := by
  unfold string?
  rw [id.source_of_le own]
  exact congrArg (Option.map Latin1.mk) (holds.get_eq _)

theorem parts_of_not_isCid (table : Bytes) {dict : TopDict} (notCid : dict.isCid = false)
    (glyphCount : Nat) : Font.parts table dict glyphCount = .ok (none, none) := by
  rw [Font.parts, notCid]
  rfl

end Font

/-- The names, the strings and the global subroutines of the font are those of the table. -/
structure Font.Shows (font : Font) (parts : TableParts) : Prop where
  name : font.name? = parts.names.objects.head?.map Latin1.mk
  string : ∀ id : StringId, standardStringCount ≤ id.value.toNat →
    font.string? id =
      parts.strings.objects[id.value.toNat - standardStringCount]?.map Latin1.mk
  globalSubroutines : font.globalSubroutines.Holds parts.globalSubroutines.objects

namespace TableParts

/-- Every structure of a written table is found, however long those in front of it are. -/
theorem font_shows {parts : TableParts} (valid : parts.IsValid) {first : Bytes}
    {dict : TopDict} {offset : Nat} {charstrings : Index}
    (described : parts.topDicts.objects.head? = some first)
    (decoded : TopDict.ofBytes first = .ok dict) (notCid : dict.isCid = false)
    (placed : dict.charstringsOffset = some offset)
    (readable : Index.at parts.encode offset = .ok charstrings) :
    ∃ table font, Table.ofBytes parts.encode = .ok table ∧ Font.ofTable table = .ok font ∧
      font.Shows parts ∧ font.glyphCount = charstrings.size := by
  rcases ObjectList.exists_ofBytes valid.globalSubroutines parts.following with
    ⟨globals, globalsRead, globalsHold⟩
  rcases ObjectList.exists_split valid.strings (parts.globalSubroutines.encode ++ parts.following)
    with ⟨strings, stringsSplit, stringsHold⟩
  rcases ObjectList.exists_split valid.topDicts (parts.strings.encode ++
    (parts.globalSubroutines.encode ++ parts.following)) with ⟨topDicts, dictsSplit, dictsHold⟩
  rcases ObjectList.exists_split valid.names (parts.topDicts.encode ++
    (parts.strings.encode ++ (parts.globalSubroutines.encode ++ parts.following))) with
    ⟨names, namesSplit, namesHold⟩
  have firstDict : topDicts.get 0 = .ok first :=
    dictsHold.get_eq_ok (List.head?_eq_getElem?.symm.trans described)
  have noParts := Font.parts_of_not_isCid parts.encode notCid charstrings.size
  let font : Font :=
    { table := parts.encode, names, strings, globalSubroutines := globals, topDict := dict,
      charstrings, fontDicts := none, fontSelect := none }
  have found : Font.ofTable parts.table = .ok font := by
    -- Each INDEX is read from the bytes that the split of the one before it leaves.
    rw [Font.ofTable, content_table valid, content]
    simp only [namesSplit, dictsSplit, stringsSplit, globalsRead, firstDict, decoded, placed, bind,
      Except.bind]
    rw [table, readable]
    simp only [noParts]
    rfl
  exact ⟨parts.table, font, ofBytes_encode valid, found,
    ⟨Font.name?_of_holds namesHold, fun _ => Font.string?_of_holds stringsHold, globalsHold⟩, rfl⟩

/-- A header of five bytes, no strings, and the charstring of a single glyph behind the INDEXes. -/
def oneGlyph : TableParts where
  minor := 0
  offsetSize := 1
  filler := [7]
  names := ⟨1, [[65]]⟩
  topDicts := ⟨2, [[171, 17]]⟩
  strings := ⟨1, []⟩
  globalSubroutines := ⟨3, [[11]]⟩
  following := [0, 1, 1, 1, 2, 14]

theorem font_shows_oneGlyph :
    oneGlyph.IsValid ∧ oneGlyph.topDicts.objects.head? = some [171, 17] ∧
      TopDict.ofBytes [171, 17] = .ok { charstringsOffset := some 32 } ∧
      TopDict.isCid { charstringsOffset := some 32 } = false ∧
      Index.at oneGlyph.encode 32 = .ok ⟨1, 1, [1, 2], [14]⟩ ∧
      ∃ table font, Table.ofBytes oneGlyph.encode = .ok table ∧ Font.ofTable table = .ok font ∧
        font.Shows oneGlyph ∧ font.glyphCount = 1 := by
  have valid : oneGlyph.IsValid := by
    refine ⟨by decide, ?names, ?topDicts, ?strings, ?globalSubroutines⟩ <;>
      exact ⟨by decide, by decide, by decide, by decide⟩
  have decoded : TopDict.ofBytes [171, 17] = .ok { charstringsOffset := some 32 } := by
    with_unfolding_all rfl
  have readable : Index.at oneGlyph.encode 32 = .ok ⟨1, 1, [1, 2], [14]⟩ := rfl
  exact ⟨valid, rfl, decoded, rfl, readable, font_shows valid rfl decoded rfl rfl readable⟩

end TableParts

end Letterform.Cff
