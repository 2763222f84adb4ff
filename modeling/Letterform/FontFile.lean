import Letterform.Bytes.Cursor

/-!
Font files. A directory lists the tables by tag; the tables follow it. What a
file holds beyond the tables asked for is never looked at.
-/

namespace Letterform

structure TableRecord where
  tag : Tag
  checksum : UInt32
  offset : UInt32
  length : UInt32
  deriving DecidableEq, Repr

instance : Packed TableRecord :=
  Packed.through (fun record => (record.tag, record.checksum, record.offset, record.length))
    (fun fields => ⟨fields.1, fields.2.1, fields.2.2.1, fields.2.2.2⟩) fun _ => rfl

structure FontFile where
  bytes : Bytes
  version : UInt32
  records : List TableRecord
  deriving DecidableEq, Repr

namespace FontFile

/-! Versions say what kind of outlines to expect. -/

def trueTypeVersion : UInt32 := 0x00010000
def cffVersion : UInt32 := 0x4F54544F
def legacyTrueTypeVersion : UInt32 := 0x74727565

def versions : List UInt32 := [trueTypeVersion, cffVersion, legacyTrueTypeVersion]

def headerLength : Nat := 12

def directoryLength (tableCount : Nat) : Nat :=
  headerLength + tableCount * Packed.width TableRecord

def ofBytes (bytes : Bytes) : Except ReadError FontFile := do
  let version ← bytes.readAt UInt32 0
  if version ∉ versions then throw (.invalidSfnt version)
  let tableCount ← bytes.readAt UInt16 4
  if bytes.length < directoryLength tableCount.toNat then throw (.outOfBounds bytes.length)
  return {
    bytes
    version
    records := Packed.decodeList TableRecord tableCount.toNat (bytes.drop headerLength) }

def table? (file : FontFile) (tag : Tag) : Option Bytes := do
  let record ← file.records.find? fun record => record.tag = tag
  file.bytes.slice? record.offset.toNat (record.offset.toNat + record.length.toNat)

def table (file : FontFile) (tag : Tag) : Except ReadError Bytes :=
  match file.table? tag with
  | some bytes => .ok bytes
  | none => .error (.tableIsMissing tag)

end FontFile

/-! Assembling a file. -/

/-- The tables of a file in ascending order of their tags, one for each tag. -/
structure TableMap where
  entries : List (Tag × Bytes) := []
  ascending : entries.Pairwise fun first second => first.1.code < second.1.code := by
    exact List.Pairwise.nil

namespace TableMap

def insertEntry (tag : Tag) (bytes : Bytes) : List (Tag × Bytes) → List (Tag × Bytes)
  | [] => [(tag, bytes)]
  | entry :: entries =>
      if tag.code < entry.1.code then (tag, bytes) :: entry :: entries
      else if entry.1.code < tag.code then entry :: insertEntry tag bytes entries
      else (tag, bytes) :: entries

theorem tag_mem_insertEntry {tag : Tag} {bytes : Bytes} {entries : List (Tag × Bytes)}
    {entry : Tag × Bytes} (member : entry ∈ insertEntry tag bytes entries) :
    entry.1 = tag ∨ entry ∈ entries := by
  induction entries with
  | nil =>
      cases List.mem_singleton.mp member
      exact .inl rfl
  | cons first entries induction =>
      simp only [insertEntry] at member
      split at member
      · rcases List.mem_cons.mp member with equal | member
        · exact .inl (congrArg Prod.fst equal)
        · exact .inr member
      · split at member
        · rcases List.mem_cons.mp member with equal | member
          · exact .inr (equal ▸ List.mem_cons_self)
          · exact (induction member).imp id (List.mem_cons_of_mem _)
        · rcases List.mem_cons.mp member with equal | member
          · exact .inl (congrArg Prod.fst equal)
          · exact .inr (List.mem_cons_of_mem _ member)

theorem ascending_insertEntry (tag : Tag) (bytes : Bytes) {entries : List (Tag × Bytes)}
    (ascending : entries.Pairwise fun first second => first.1.code < second.1.code) :
    (insertEntry tag bytes entries).Pairwise fun first second =>
      first.1.code < second.1.code := by
  induction entries with
  | nil => exact List.pairwise_singleton _ _
  | cons entry entries induction =>
      obtain ⟨least, ascendingRest⟩ := List.pairwise_cons.mp ascending
      simp only [insertEntry]
      split
      · next before =>
          refine List.pairwise_cons.mpr ⟨fun other member => ?_, ascending⟩
          rcases List.mem_cons.mp member with equal | member
          · exact equal ▸ before
          · exact UInt32.lt_trans before (least other member)
      · split
        · next beyond =>
            refine List.pairwise_cons.mpr ⟨fun other member => ?_, induction ascendingRest⟩
            rcases tag_mem_insertEntry member with equal | member
            · exact equal ▸ beyond
            · exact least other member
        · next notBefore notBeyond =>
            have same : entry.1.code = tag.code :=
              UInt32.le_antisymm (UInt32.not_lt.mp notBefore) (UInt32.not_lt.mp notBeyond)
            exact List.pairwise_cons.mpr
              ⟨fun other member => same ▸ least other member, ascendingRest⟩

def insert (tables : TableMap) (tag : Tag) (bytes : Bytes) : TableMap where
  entries := insertEntry tag bytes tables.entries
  ascending := ascending_insertEntry tag bytes tables.ascending

def ofList (entries : List (Tag × Bytes)) : TableMap :=
  entries.foldl (fun tables entry => tables.insert entry.1 entry.2) {}

def paddedLength (length : Nat) : Nat := (length + 3) / 4 * 4

def padded (bytes : Bytes) : Bytes := List.rightpad (paddedLength bytes.length) 0 bytes

def records : (offset : Nat) → List (Tag × Bytes) → List TableRecord
  | _, [] => []
  | offset, (tag, bytes) :: entries =>
      ⟨tag, 0, UInt32.ofNat offset, UInt32.ofNat bytes.length⟩ ::
        records (offset + paddedLength bytes.length) entries

/-- What stands in front of the tables. The three numbers that speed up a search of the
directory are left zero. -/
def directory (tables : TableMap) (version : UInt32) : Bytes :=
  Packed.encode version ++ Bytes.ofNumber 2 tables.entries.length ++ List.replicate 6 0 ++
    Packed.encodeList (records (FontFile.directoryLength tables.entries.length) tables.entries)

/-- The file with these tables. It is padded as a whole after each of them. -/
def encode (tables : TableMap) (version : UInt32) : Bytes :=
  tables.entries.foldl (fun file entry => padded (file ++ entry.2)) (tables.directory version)

end TableMap

end Letterform
