import Letterform.FontFile
import Letterform.Proofs.Bytes.Reading
import Letterform.Proofs.Cff.Index
import Mathlib.Data.List.Forall2
import Mathlib.Data.List.Induction

/-!
Files that give back their tables. The directory adds up the padded lengths of the tables, while
the file is padded as a whole after each table. Both come to the same because the directory, and
with it the file in front of each table, has a multiple of four bytes.
-/

namespace Letterform

/-! Parts of byte strings. -/

theorem Bytes.stop_le_of_slice?_eq_some {bytes part : Bytes} {start stop : Nat}
    (found : bytes.slice? start stop = some part) : stop ≤ bytes.length := by
  rw [slice?] at found
  split at found
  · next inside => exact inside.2
  · cases found

theorem lookup_cons_eq {α β : Type} [DecidableEq α] (key other : α) (value : β)
    (entries : List (α × β)) :
    ((key, value) :: entries).lookup other =
      if other = key then some value else entries.lookup other := by
  rw [List.lookup_cons]
  by_cases same : other = key
  · rw [if_pos same, beq_iff_eq.mpr same]
  · rw [if_neg same, beq_eq_false_iff_ne.mpr same]

namespace TableMap

/-! Adding tables. -/

theorem lookup_insertEntry (tag other : Tag) (bytes : Bytes) (entries : List (Tag × Bytes)) :
    (insertEntry tag bytes entries).lookup other =
      if other = tag then some bytes else entries.lookup other := by
  induction entries with
  | nil => exact lookup_cons_eq tag other bytes []
  | cons entry entries induction =>
      rcases entry with ⟨first, firstBytes⟩
      rw [insertEntry]
      split
      · exact lookup_cons_eq tag other bytes _
      · split
        · next beyond =>
            rw [lookup_cons_eq, lookup_cons_eq, induction]
            by_cases same : other = first
            · have different : other ≠ tag := by
                rintro rfl
                rw [same] at beyond
                exact UInt32.lt_irrefl _ beyond
              rw [if_pos same, if_neg different, if_pos same]
            · rw [if_neg same, if_neg same]
        · next notBefore notBeyond =>
            have same : first = tag := congrArg Tag.mk
              (UInt32.le_antisymm (UInt32.not_lt.mp notBefore) (UInt32.not_lt.mp notBeyond))
            rw [lookup_cons_eq, lookup_cons_eq, same]
            split
            · rfl
            · rfl

/-- The table that was added last for a tag is the one that counts. -/
theorem lookup_ofList (additions : List (Tag × Bytes)) (tag : Tag) :
    (ofList additions).entries.lookup tag = additions.reverse.lookup tag := by
  induction additions using List.reverseRecOn with
  | nil => rfl
  | append_singleton additions addition induction =>
      have added : ofList (additions ++ [addition]) =
          (ofList additions).insert addition.1 addition.2 := by
        rw [ofList, List.foldl_append]
        rfl
      rw [added, insert, lookup_insertEntry, induction, List.reverse_append, List.reverse_singleton,
        List.singleton_append, lookup_cons_eq]

theorem mem_tags_iff (entries : List (Tag × Bytes)) (tag : Tag) :
    tag ∈ entries.map Prod.fst ↔ (entries.lookup tag).isSome := by
  rw [List.lookup_isSome_iff, List.mem_map]
  refine exists_congr fun entry => and_congr_right fun _ => ?_
  rw [beq_iff_eq]
  exact eq_comm

theorem lookup_of_mem {entries : List (Tag × Bytes)} {entry : Tag × Bytes}
    (ascending : entries.Pairwise fun first second => first.1.code < second.1.code)
    (member : entry ∈ entries) : entries.lookup entry.1 = some entry.2 := by
  induction entries with
  | nil => cases member
  | cons first entries induction =>
      rcases List.pairwise_cons.mp ascending with ⟨least, ascendingOthers⟩
      rcases first with ⟨firstTag, firstBytes⟩
      rw [lookup_cons_eq]
      rcases List.mem_cons.mp member with rfl | member
      · exact if_pos rfl
      · have different : entry.1 ≠ firstTag := by
          intro same
          have less := least entry member
          rw [same] at less
          exact UInt32.lt_irrefl _ less
        rw [if_neg different, induction ascendingOthers member]

/-! Padding. -/

theorem le_paddedLength (length : Nat) : length ≤ paddedLength length := by
  rw [paddedLength]
  omega

@[simp] theorem length_padded (bytes : Bytes) :
    (padded bytes).length = paddedLength bytes.length := by
  rw [padded, List.length_rightpad]
  exact Nat.max_eq_left (le_paddedLength bytes.length)

theorem four_dvd_length_append_padded {front : Bytes} (aligned : 4 ∣ front.length)
    (table : Bytes) : 4 ∣ (front ++ padded table).length := by
  rw [List.length_append, length_padded]
  exact Nat.dvd_add aligned (Nat.dvd_mul_left 4 _)

theorem four_dvd_directoryLength (tableCount : Nat) : 4 ∣ FontFile.directoryLength tableCount := by
  show 4 ∣ 12 + tableCount * 16
  omega

theorem paddedLength_add {front : Nat} (aligned : 4 ∣ front) (length : Nat) :
    paddedLength (front + length) = front + paddedLength length := by
  rcases aligned with ⟨words, rfl⟩
  rw [paddedLength, paddedLength]
  omega

/-- Behind a multiple of four bytes, a file is padded by as much as its last table. -/
theorem padded_append {front : Bytes} (aligned : 4 ∣ front.length) (table : Bytes) :
    padded (front ++ table) = front ++ padded table := by
  rw [padded, padded, List.rightpad, List.rightpad, List.length_append, paddedLength_add aligned,
    Nat.add_sub_add_left, List.append_assoc]

def area (entries : List (Tag × Bytes)) : Bytes := entries.flatMap fun entry => padded entry.2

theorem foldl_padded {front : Bytes} (aligned : 4 ∣ front.length)
    (entries : List (Tag × Bytes)) :
    entries.foldl (fun file entry => padded (file ++ entry.2)) front = front ++ area entries := by
  induction entries generalizing front with
  | nil => exact (List.append_nil front).symm
  | cons entry entries induction =>
      have alignedNext := four_dvd_length_append_padded aligned entry.2
      rw [List.foldl_cons, padded_append aligned, induction alignedNext, List.append_assoc]
      rfl

/-! The directory. -/

@[simp] theorem length_records (offset : Nat) (entries : List (Tag × Bytes)) :
    (records offset entries).length = entries.length := by
  induction entries generalizing offset with
  | nil => rfl
  | cons entry entries induction => exact congrArg (· + 1) (induction _)

theorem map_tag_records (offset : Nat) (entries : List (Tag × Bytes)) :
    (records offset entries).map TableRecord.tag = entries.map Prod.fst := by
  induction entries generalizing offset with
  | nil => rfl
  | cons entry entries induction => exact congrArg (entry.1 :: ·) (induction _)

/-- The record says what the entry is and where its bytes are. -/
structure Places (file : Bytes) (entry : Tag × Bytes) (record : TableRecord) : Prop where
  tag : record.tag = entry.1
  length : record.length.toNat = entry.2.length
  aligned : 4 ∣ record.offset.toNat
  bytes : file.slice? record.offset.toNat (record.offset.toNat + record.length.toNat) =
    some entry.2

theorem Places.stop_le {file : Bytes} {entry : Tag × Bytes} {record : TableRecord}
    (places : Places file entry record) :
    record.offset.toNat + record.length.toNat ≤ file.length :=
  Bytes.stop_le_of_slice?_eq_some places.bytes

theorem exists_places_of_mem {file : Bytes} {entries : List (Tag × Bytes)}
    {records : List TableRecord} (placed : List.Forall₂ (Places file) entries records)
    {record : TableRecord} (member : record ∈ records) :
    ∃ entry ∈ entries, Places file entry record := by
  induction placed with
  | nil => cases member
  | cons places _ induction =>
      rcases List.mem_cons.mp member with rfl | member
      · exact ⟨_, List.mem_cons_self, places⟩
      · rcases induction member with ⟨entry, member, places⟩
        exact ⟨entry, List.mem_cons_of_mem _ member, places⟩

theorem length_area_cons (tag : Tag) (bytes : Bytes) (entries : List (Tag × Bytes)) :
    (area ((tag, bytes) :: entries)).length =
      paddedLength bytes.length + (area entries).length := by
  rw [area, List.flatMap_cons, List.length_append, length_padded]
  rfl

theorem toNat_record {offset : Nat} {tag : Tag} {bytes : Bytes} {entries : List (Tag × Bytes)}
    (small : offset + (area ((tag, bytes) :: entries)).length < 0x100000000) :
    (UInt32.ofNat offset).toNat = offset ∧ (UInt32.ofNat bytes.length).toNat = bytes.length := by
  rw [length_area_cons] at small
  have short := le_paddedLength bytes.length
  constructor
  · exact UInt32.toNat_ofNat_of_lt' (Nat.lt_of_le_of_lt (Nat.le_add_right _ _) small)
  · refine UInt32.toNat_ofNat_of_lt' ?_
    show bytes.length < 0x100000000
    omega

/-- The tables lie where the records say if they start behind as many bytes as their offset. -/
theorem records_place {front : Bytes} {entries : List (Tag × Bytes)} (aligned : 4 ∣ front.length)
    (small : front.length + (area entries).length < 0x100000000) :
    List.Forall₂ (Places (front ++ area entries)) entries (records front.length entries) := by
  induction entries generalizing front with
  | nil => exact .nil
  | cons entry entries induction =>
      rcases entry with ⟨tag, bytes⟩
      rcases toNat_record small with ⟨offset, length⟩
      have next : (front ++ padded bytes).length = front.length + paddedLength bytes.length := by
        rw [List.length_append, length_padded]
      have alignedNext := four_dvd_length_append_padded aligned bytes
      have others := induction alignedNext (by rwa [next, Nat.add_assoc, ← length_area_cons tag])
      rw [List.append_assoc, next] at others
      refine .cons ⟨rfl, length, ?start, ?place⟩ others
      case start =>
        rw [offset]
        exact aligned
      case place =>
        rw [offset, length, area, List.flatMap_cons, padded, List.rightpad, List.append_assoc]
        exact Bytes.slice?_append _ _ _

theorem le_offset_of_mem_records {offset : Nat} {entries : List (Tag × Bytes)}
    (small : offset + (area entries).length < 0x100000000) {record : TableRecord}
    (member : record ∈ records offset entries) : offset ≤ record.offset.toNat := by
  induction entries generalizing offset with
  | nil => cases member
  | cons entry entries induction =>
      rcases entry with ⟨tag, bytes⟩
      rcases List.mem_cons.mp member with rfl | member
      · exact Nat.le_of_eq (toNat_record small).1.symm
      · rw [length_area_cons, ← Nat.add_assoc] at small
        exact Nat.le_trans (Nat.le_add_right _ _) (induction small member)

theorem records_disjoint {offset : Nat} {entries : List (Tag × Bytes)}
    (small : offset + (area entries).length < 0x100000000) :
    (records offset entries).Pairwise fun first second =>
      first.offset.toNat + first.length.toNat ≤ second.offset.toNat := by
  induction entries generalizing offset with
  | nil => exact .nil
  | cons entry entries induction =>
      rcases entry with ⟨tag, bytes⟩
      rcases toNat_record small with ⟨offsetStored, lengthStored⟩
      rw [length_area_cons, ← Nat.add_assoc] at small
      refine .cons (fun record member => ?_) (induction small)
      calc
        _ = offset + bytes.length := by rw [offsetStored, lengthStored]
        _ ≤ offset + paddedLength bytes.length :=
          Nat.add_le_add_left (le_paddedLength bytes.length) offset
        _ ≤ record.offset.toNat := le_offset_of_mem_records small member

/-! Looking tables up. -/

theorem find?_places {file : Bytes} {entries : List (Tag × Bytes)} {records : List TableRecord}
    (placed : List.Forall₂ (Places file) entries records) (tag : Tag) :
    ((records.find? fun record => record.tag = tag).bind fun record =>
        file.slice? record.offset.toNat (record.offset.toNat + record.length.toNat)) =
      entries.lookup tag := by
  induction placed with
  | nil => rfl
  | @cons entry record _ _ places _ induction =>
      rcases entry with ⟨other, bytes⟩
      rw [lookup_cons_eq]
      by_cases same : tag = other
      · have found : decide (record.tag = tag) = true :=
          decide_eq_true (places.tag.trans same.symm)
        rw [if_pos same, List.find?_cons, found]
        exact places.bytes
      · have missed : decide (record.tag = tag) = false :=
          decide_eq_false fun found => same (found.symm.trans places.tag)
        rw [if_neg same, List.find?_cons, missed]
        exact induction

/-! Files. -/

theorem length_directory (tables : TableMap) (version : UInt32) :
    (tables.directory version).length = FontFile.directoryLength tables.entries.length := by
  rw [directory, List.length_append, List.length_append, List.length_append, Packed.length_encode,
    Bytes.length_ofNumber, List.length_replicate, Packed.length_encodeList, length_records]
  rfl

/-- The tables lie as far behind the directory as its records say. -/
theorem encode_eq (tables : TableMap) (version : UInt32) :
    tables.encode version = tables.directory version ++ area tables.entries := by
  refine foldl_padded ?_ tables.entries
  rw [length_directory]
  exact four_dvd_directoryLength _

end TableMap

namespace FontFile

theorem ofBytes_encode {tables : TableMap} {version : UInt32} (accepted : version ∈ versions)
    (few : tables.entries.length ≤ 65535) :
    let records := TableMap.records (directoryLength tables.entries.length) tables.entries
    ofBytes (tables.encode version) = .ok { bytes := tables.encode version, version, records } := by
  intro records
  have count : (UInt16.ofNat tables.entries.length).toNat = tables.entries.length :=
    UInt16.toNat_ofNat_of_lt' (Nat.lt_succ_of_le few)
  have parts : tables.encode version = Packed.encode version ++
      (Packed.encode (UInt16.ofNat tables.entries.length) ++ (List.replicate 6 0 ++
        (Packed.encodeList records ++ TableMap.area tables.entries))) := by
    have countStored : Bytes.ofNumber 2 tables.entries.length =
        Packed.encode (UInt16.ofNat tables.entries.length) :=
      congrArg (Bytes.ofNumber 2) count.symm
    rw [TableMap.encode_eq, TableMap.directory, countStored]
    simp only [List.append_assoc]
    rfl
  have versionRead : (tables.encode version).readAt UInt32 0 = .ok version := by
    rw [parts]
    exact Bytes.readAt_encode _ _
  have countRead : (tables.encode version).readAt UInt16 4 =
      .ok (UInt16.ofNat tables.entries.length) := by
    rw [parts]
    exact Bytes.readAt_append (Packed.encode version) _ _
  have long : directoryLength tables.entries.length ≤ (tables.encode version).length := by
    rw [TableMap.encode_eq, List.length_append, TableMap.length_directory]
    exact Nat.le_add_right _ _
  have recordsRead : Packed.decodeList TableRecord tables.entries.length
      ((tables.encode version).drop headerLength) = records := by
    have behind : (tables.encode version).drop headerLength =
        Packed.encodeList records ++ TableMap.area tables.entries := by
      rw [parts, ← List.append_assoc, ← List.append_assoc]
      exact List.drop_left' rfl
    have decoded := Packed.decodeList_encodeList records (TableMap.area tables.entries)
    rwa [TableMap.length_records, ← behind] at decoded
  rw [ofBytes, versionRead, countRead]
  simp only [bind, Except.bind, if_neg (not_not_intro accepted), count,
    if_neg (Nat.not_lt.mpr long), recordsRead]
  rfl

/-- The file has the tables that were added last for each tag, and no others. -/
structure Holds (file : FontFile) (additions : List (Tag × Bytes)) : Prop where
  tags : ∀ tag, tag ∈ file.records.map TableRecord.tag ↔ tag ∈ additions.map Prod.fst
  ascending : (file.records.map TableRecord.tag).Pairwise fun first second =>
    first.code < second.code
  lengths : ∀ record ∈ file.records,
    (additions.reverse.lookup record.tag).map List.length = some record.length.toNat
  aligned : ∀ record ∈ file.records, 4 ∣ record.offset.toNat
  inside : ∀ record ∈ file.records, directoryLength file.records.length ≤ record.offset.toNat ∧
    record.offset.toNat + record.length.toNat ≤ file.bytes.length
  disjoint : file.records.Pairwise fun first second =>
    first.offset.toNat + first.length.toNat ≤ second.offset.toNat
  table : ∀ tag, file.table? tag = additions.reverse.lookup tag

/-- A written file is read, and it has the tables that were added to it. -/
theorem exists_holds_encode {version : UInt32} (accepted : version ∈ versions)
    {additions : List (Tag × Bytes)}
    (few : (TableMap.ofList additions).entries.length ≤ 65535)
    (small : ((TableMap.ofList additions).encode version).length < 0x100000000) :
    ∃ file, ofBytes ((TableMap.ofList additions).encode version) = .ok file ∧
      file.version = version ∧ file.Holds additions := by
  have lookup := TableMap.lookup_ofList additions
  generalize TableMap.ofList additions = tables at few small lookup ⊢
  have directoryLength := tables.length_directory version
  rw [TableMap.encode_eq, List.length_append] at small
  have placed := TableMap.records_place
    (directoryLength ▸ TableMap.four_dvd_directoryLength _) small
  rw [directoryLength] at small placed
  rw [← TableMap.encode_eq] at placed
  refine ⟨_, ofBytes_encode accepted few, rfl, ?_⟩
  constructor
  case tags =>
    intro tag
    have added : tag ∈ additions.map Prod.fst ↔ tag ∈ additions.reverse.map Prod.fst := by
      rw [List.map_reverse, List.mem_reverse]
    rw [TableMap.map_tag_records, TableMap.mem_tags_iff, lookup, added, TableMap.mem_tags_iff]
  case ascending =>
    rw [TableMap.map_tag_records, List.pairwise_map]
    exact tables.ascending
  case lengths =>
    intro record member
    rcases TableMap.exists_places_of_mem placed member with ⟨entry, member, places⟩
    rw [← lookup, places.tag, TableMap.lookup_of_mem tables.ascending member, places.length]
    rfl
  case aligned =>
    intro record member
    rcases TableMap.exists_places_of_mem placed member with ⟨entry, -, places⟩
    exact places.aligned
  case inside =>
    intro record member
    rcases TableMap.exists_places_of_mem placed member with ⟨entry, -, places⟩
    rw [TableMap.length_records]
    exact ⟨TableMap.le_offset_of_mem_records small member, places.stop_le⟩
  case disjoint => exact TableMap.records_disjoint small
  case table =>
    intro tag
    rw [← lookup]
    exact TableMap.find?_places placed tag

/-- A table that is replaced, an empty one and ones that need padding. -/
theorem exists_holds_encode_replaced :
    let additions : List (Tag × Bytes) :=
      [(.glyf, [1, 2, 3]), (.cmap, []), (.loca, [4, 5, 6, 7, 8]), (.glyf, [9])]
    cffVersion ∈ versions ∧ (TableMap.ofList additions).entries.length ≤ 65535 ∧
      ((TableMap.ofList additions).encode cffVersion).length < 0x100000000 ∧
      ∃ file, ofBytes ((TableMap.ofList additions).encode cffVersion) = .ok file ∧
        file.version = cffVersion ∧ file.Holds additions := by
  intro additions
  have accepted : cffVersion ∈ versions := by decide
  have few : (TableMap.ofList additions).entries.length ≤ 65535 := by decide
  have small : ((TableMap.ofList additions).encode cffVersion).length < 0x100000000 := by
    decide +kernel
  exact ⟨accepted, few, small, exists_holds_encode accepted few small⟩

end FontFile

end Letterform
