import Letterform.Proofs.Bytes.Places
import Letterform.Proofs.Cmap.SegmentMap
import Mathlib.Data.List.Find
import Mathlib.Tactic.Convert

/-!
Segment maps by a plain scan of their bytes. All that the search by halves needs is that the
ends are in order; segments may lie across each other, start behind their own ends or have
range offsets that lead out of the subtable, and still the first segment that ends at or after
the code decides.
-/

namespace Letterform

namespace Bytes

def wordAt? (bytes : Bytes) (offset : Nat) : Option Nat := do
  let high ← bytes[offset]?
  let low ← bytes[offset + 1]?
  return 256 * high.toNat + low.toNat

theorem wordAt?_eq_number (bytes : Bytes) (offset : Nat) :
    bytes.wordAt? offset = (splitAt? 2 (bytes.drop offset)).map fun parts => number parts.1 := by
  have high : bytes[offset]? = (bytes.drop offset)[0]? := by rw [List.getElem?_drop, Nat.add_zero]
  have low : bytes[offset + 1]? = (bytes.drop offset)[1]? := by rw [List.getElem?_drop]
  rw [wordAt?, high, low]
  rcases bytes.drop offset with _ | ⟨first, _ | ⟨second, rest⟩⟩
  · rfl
  · rfl
  · simp [splitAt?, number]

theorem toNat_ofNat_number {bytes taken rest : Bytes}
    (parts : splitAt? 2 bytes = some (taken, rest)) :
    (UInt16.ofNat taken.number).toNat = taken.number := by
  have bound := number_lt taken
  rw [(splitAt?_eq_some.mp parts).2] at bound
  exact Nat.mod_eq_of_lt bound

theorem wordAt?_eq_readAt (bytes : Bytes) (offset : Nat) :
    bytes.wordAt? offset = (bytes.readAt UInt16 offset).toOption.map UInt16.toNat := by
  have width : Packed.width UInt16 = 2 := rfl
  rw [wordAt?_eq_number, readAt, width]
  cases parts : splitAt? 2 (bytes.drop offset) with
  | none => rfl
  | some pair => exact congrArg some (toNat_ofNat_number parts).symm

theorem wordAt?_of_readAt {bytes : Bytes} {offset : Nat} {value : UInt16}
    (read : bytes.readAt UInt16 offset = .ok value) : bytes.wordAt? offset = some value.toNat := by
  rw [wordAt?_eq_readAt, read]
  rfl

theorem wordAt?_of_readAt_signed {bytes : Bytes} {offset : Nat} {value : Int16}
    (read : bytes.readAt Int16 offset = .ok value) :
    bytes.wordAt? offset = some value.toUInt16.toNat := by
  have width : Packed.width Int16 = 2 := rfl
  rw [readAt, width] at read
  rw [wordAt?_eq_number]
  cases parts : splitAt? 2 (bytes.drop offset) with
  | none =>
      rw [parts] at read
      cases read
  | some pair =>
      rw [parts] at read
      cases read
      exact congrArg some (toNat_ofNat_number parts).symm

section HoldsFrom

variable {bytes : Bytes} {start index : Nat}

theorem HoldsFrom.wordAt? {values : List UInt16} {value : UInt16}
    (holds : bytes.HoldsFrom start values) (member : values[index]? = some value) :
    bytes.wordAt? (start + 2 * index) = some value.toNat := by
  rw [Nat.mul_comm]
  exact wordAt?_of_readAt (holds index value member)

theorem HoldsFrom.wordAt?_signed {values : List Int16} {value : Int16}
    (holds : bytes.HoldsFrom start values) (member : values[index]? = some value) :
    bytes.wordAt? (start + 2 * index) = some value.toUInt16.toNat := by
  rw [Nat.mul_comm]
  exact wordAt?_of_readAt_signed (holds index value member)

end HoldsFrom

end Bytes

namespace Cmap

/-- The glyph that a segment, one of so many, gives to a code that is not below its start. A range
offset leads on from the place where it stands. -/
def scanIn? (bytes : Bytes) (count index start code : Nat) : Option Nat := do
  let delta ← bytes.wordAt? (14 + 4 * count + 2 + 2 * index)
  let place := 14 + 6 * count + 2 + 2 * index
  let rangeOffset ← bytes.wordAt? place
  if rangeOffset = 0 then return (delta + code) % 65536
  let entry ← bytes.wordAt? (place + rangeOffset + 2 * (code - start))
  if entry = 0 then none else return (delta + entry) % 65536

/-- The glyph of a code in a subtable of format 4. The segments are looked through from the front
for the first that ends at or after the code. -/
def scan? (bytes : Bytes) (code : Nat) : Option Nat := do
  if 0xFFFF < code then none
  let doubleCount ← bytes.wordAt? 6
  let count := doubleCount / 2
  let index ← (List.range count).find? fun index =>
    (bytes.wordAt? (14 + 2 * index)).any fun last => code ≤ last
  let start ← bytes.wordAt? (14 + 2 * count + 2 + 2 * index)
  if code < start then none else scanIn? bytes count index start code

namespace SegmentMap

/-! Where the fields stand. -/

structure StandsIn (map : SegmentMap) (bytes : Bytes) : Prop where
  whole : map.bytes = bytes
  count : ∃ doubleCount, bytes.readAt UInt16 6 = .ok doubleCount ∧
    map.ends.length = doubleCount.toNat / 2
  startCount : map.starts.length = map.ends.length
  deltaCount : map.deltas.length = map.ends.length
  rangeOffsetCount : map.rangeOffsets.length = map.ends.length
  ends : bytes.HoldsFrom 14 map.ends
  starts : bytes.HoldsFrom (14 + 2 * map.ends.length + 2) map.starts
  deltas : bytes.HoldsFrom (14 + 4 * map.ends.length + 2) map.deltas
  rangeOffsets : bytes.HoldsFrom (14 + 6 * map.ends.length + 2) map.rangeOffsets

theorem standsIn_of_decode {bytes : Bytes} {map : SegmentMap}
    (read : (decoder bytes).decode bytes = .ok map) : map.StandsIn bytes := by
  have equal : (decoder bytes).run (bytes.cursorAt 0) =
      (.ok map, ((decoder bytes).run (bytes.cursorAt 0)).2) := by
    rw [Bytes.cursorAt_zero]
    exact Prod.ext read rfl
  generalize ((decoder bytes).run (bytes.cursorAt 0)).2 = last at equal
  simp only [decoder] at equal
  rw [Decoder.skip_bind_cursorAt] at equal
  rcases Decoder.read_bind_cursorAt equal with ⟨doubleCount, doubleCountRead, equal⟩
  rw [Decoder.skip_bind_cursorAt] at equal
  rcases Decoder.readList_bind_cursorAt equal with ⟨ends, endCount, endsHeld, equal⟩
  rw [Decoder.skip_bind_cursorAt] at equal
  rcases Decoder.readList_bind_cursorAt equal with ⟨starts, startCount, startsHeld, equal⟩
  rcases Decoder.readList_bind_cursorAt equal with ⟨deltas, deltaCount, deltasHeld, equal⟩
  rcases Decoder.readList_bind_cursorAt equal with
    ⟨rangeOffsets, rangeOffsetCount, rangeOffsetsHeld, equal⟩
  cases equal
  have width : Packed.width UInt16 = 2 := rfl
  have deltaWidth : Packed.width Int16 = 2 := rfl
  refine ⟨rfl, ⟨doubleCount, doubleCountRead, endCount⟩, startCount.trans endCount.symm,
    deltaCount.trans endCount.symm, rangeOffsetCount.trans endCount.symm, endsHeld, ?_, ?_, ?_⟩
  · convert startsHeld using 1
    rw [endCount, width]
    omega
  · convert deltasHeld using 1
    rw [endCount, width]
    omega
  · convert rangeOffsetsHeld using 1
    rw [endCount, width, deltaWidth]
    omega

theorem toNat_addDelta (value : UInt16) (delta : Int16) :
    (addDelta value delta).toNat = (delta.toUInt16.toNat + value.toNat) % 65536 := by
  rw [addDelta, GlyphId.toNat, UInt16.toNat_add, Nat.add_comm]

namespace StandsIn

variable {bytes : Bytes} {map : SegmentMap} (stands : map.StandsIn bytes)

include stands

theorem find?_range_eq_findIdx? (code : UInt16) :
    ((List.range map.ends.length).find? fun index =>
      (bytes.wordAt? (14 + 2 * index)).any fun last => code.toNat ≤ last) =
        map.ends.findIdx? fun last => code ≤ last := by
  rw [← find?_range_getElem?]
  apply List.find?_congr
  intro index member
  have found := List.getElem?_eq_getElem (List.mem_range.mp member)
  rw [stands.ends.wordAt? found, found]
  rfl

theorem toNat_glyphIn? {index : Nat} (within : index < map.ends.length) {start code : UInt16}
    (low : start ≤ code) :
    (map.glyphIn? index start code).map GlyphId.toNat =
      scanIn? bytes map.ends.length index start.toNat code.toNat := by
  have inDeltas : index < map.deltas.length := stands.deltaCount ▸ within
  have inRangeOffsets : index < map.rangeOffsets.length := stands.rangeOffsetCount ▸ within
  have delta := List.getElem?_eq_getElem inDeltas
  have rangeOffset := List.getElem?_eq_getElem inRangeOffsets
  generalize map.deltas[index] = difference at delta
  generalize map.rangeOffsets[index] = distance at rangeOffset
  simp only [glyphIn?, scanIn?, delta, rangeOffset, stands.deltas.wordAt?_signed delta,
    stands.rangeOffsets.wordAt? rangeOffset, Option.bind_eq_bind, Option.bind_some]
  have isZero (value : UInt16) : value.toNat = 0 ↔ value = 0 := UInt16.toNat_inj (b := 0)
  by_cases direct : distance = 0
  · rw [if_pos direct, if_pos ((isZero distance).mpr direct)]
    exact congrArg some (toNat_addDelta code difference)
  · rw [if_neg direct, if_neg (mt (isZero distance).mp direct), stands.whole, rangeOffsetPosition,
      endsOffset, UInt16.toNat_sub_of_le _ _ low, Bytes.wordAt?_eq_readAt]
    generalize (bytes.readAt UInt16 _).toOption = found
    cases found with
    | none => rfl
    | some entry =>
        by_cases missing : entry = 0
        · subst missing
          rfl
        · simp only [Option.map_some, Option.bind_some, if_neg missing,
            if_neg (mt (isZero entry).mp missing)]
          exact congrArg some (toNat_addDelta entry difference)

end StandsIn

variable {bytes : Bytes} {map : SegmentMap}

/-- A map that can be read, with its ends in order, gives every code the glyph that the scan gives. -/
theorem toNat_glyph?_eq_scan (read : (decoder bytes).decode bytes = .ok map)
    (ascending : map.ends.IsChain (· ≤ ·)) (code : UInt32) :
    (map.glyph? code).map GlyphId.toNat = scan? bytes code.toNat := by
  have stands := standsIn_of_decode read
  by_cases small : code.toNat ≤ 0xFFFF
  · have number := toNat_toUInt16 small
    have search := segmentFor_eq_findIdx (List.isChain_iff_pairwise.mp ascending) code.toUInt16
    rcases stands.count with ⟨doubleCount, doubleCountRead, count⟩
    rw [scan?, if_neg (Nat.not_lt.mpr small), Bytes.wordAt?_of_readAt doubleCountRead, glyph?,
      if_pos small, ← number]
    simp only [Option.bind_eq_bind, Option.bind_some, ← count]
    rw [stands.find?_range_eq_findIdx?, search]
    cases found : map.ends.findIdx? fun last => code.toUInt16 ≤ last with
    | none =>
        have beyond := List.findIdx?_eq_none_iff_findIdx_eq.mp found
        have missing : map.starts[map.ends.length]? = none :=
          List.getElem?_eq_none (Nat.le_of_eq stands.startCount)
        rw [beyond, missing]
        rfl
    | some index =>
        rcases List.findIdx?_eq_some_iff_findIdx_eq.mp found with ⟨within, first⟩
        have inStarts : index < map.starts.length := stands.startCount ▸ within
        have start := List.getElem?_eq_getElem inStarts
        generalize map.starts[index] = lowest at start
        rw [first, start]
        simp only [Option.bind_some, stands.starts.wordAt? start, UInt16.lt_iff_toNat_lt]
        by_cases below : code.toUInt16.toNat < lowest.toNat
        · rw [if_pos below, if_pos below]
          rfl
        · have low : lowest ≤ code.toUInt16 := UInt16.le_iff_toNat_le.mpr (Nat.le_of_not_lt below)
          rw [if_neg below, if_neg below, stands.toNat_glyphIn? within low]
  · rw [glyph?, if_neg small, scan?, if_pos (Nat.lt_of_not_le small)]
    rfl

/-- An odd count, an end twice, a segment that starts behind its end and a range offset that leads
out of the bytes. -/
theorem toNat_glyph?_eq_scan_three :
    let bytes : Bytes :=
      [0, 4, 0, 0, 0, 0, 0, 7, 0, 0, 0, 0, 0, 0,
        0, 20, 0, 20, 0, 40, 0, 0, 0, 18, 0, 30, 0, 35, 0, 9, 0, 1, 0xFF, 0xFF,
        0, 6, 0, 0, 0xFF, 0, 0, 7, 0, 0, 0xFF, 0xFE]
    let map : SegmentMap :=
      { ends := [20, 20, 40], starts := [18, 30, 35], deltas := [9, 1, -1],
        rangeOffsets := [6, 0, 0xFF00], bytes }
    (decoder bytes).decode bytes = .ok map ∧ map.ends.IsChain (· ≤ ·) ∧
      ∀ code, (map.glyph? code).map GlyphId.toNat = scan? bytes code.toNat := by
  intro bytes map
  have read : (decoder bytes).decode bytes = .ok map := by decide +kernel
  have ascending : map.ends.IsChain (· ≤ ·) := by decide
  exact ⟨read, ascending, toNat_glyph?_eq_scan read ascending⟩

end SegmentMap

end Cmap

end Letterform
