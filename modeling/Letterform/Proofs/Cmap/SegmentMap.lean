import Letterform.Proofs.Bytes.Reading
import Letterform.Proofs.Ascending
import Letterform.Table.Cmap
import Mathlib.Data.List.Chain

/-!
Segment maps come back from their bytes. The glyphs of a segment stand in an array behind all
range offsets, so how far they are from the range offset of the segment depends on how many
segments follow and on how many glyphs the segments before it have. The search for a segment
is right because the segments are in order, with the final one behind them.
-/

namespace Letterform.Cmap

/-! Segments that can be written. -/

def Segment.entries (segment : Segment) : List UInt16 := segment.glyphs.getD []

def entriesBefore (segments : List Segment) (index : Nat) : Nat :=
  ((segments.take index).flatMap Segment.entries).length

def entryDistance (segments : List Segment) (index : Nat) : Nat :=
  2 * (segments.length - index) + 2 * entriesBefore segments index

def withFinal (segments : List Segment) : List Segment := segments ++ [Segment.final]

/-! The array of glyphs. -/

section Entries

variable {segments : List Segment} {index : Nat} {segment : Segment}

theorem rangeOffsets_cons (arraySize : Nat) (first : Segment) (segments : List Segment) :
    rangeOffsets arraySize (first :: segments) =
      (match first.glyphs with
        | some _ => UInt16.ofNat (2 * (segments.length + 1) + 2 * arraySize)
        | none => 0) :: rangeOffsets (arraySize + first.entries.length) segments := by
  rw [rangeOffsets, Segment.entries]
  cases first.glyphs <;> rfl

theorem length_rangeOffsets (arraySize : Nat) (segments : List Segment) :
    (rangeOffsets arraySize segments).length = segments.length := by
  induction segments generalizing arraySize with
  | nil => rfl
  | cons first segments induction =>
      rw [rangeOffsets_cons, List.length_cons, induction, List.length_cons]

/-- A range offset leads from its own place to the entries of its segment. -/
theorem getElem?_rangeOffsets (arraySize : Nat) (found : segments[index]? = some segment) :
    (rangeOffsets arraySize segments)[index]? = some (match segment.glyphs with
      | some _ => UInt16.ofNat (entryDistance segments index + 2 * arraySize)
      | none => 0) := by
  induction segments generalizing arraySize index with
  | nil => cases found
  | cons first segments induction =>
      rw [rangeOffsets_cons]
      cases index with
      | zero =>
          cases found
          rfl
      | succ index =>
          have distance : entryDistance (first :: segments) (index + 1) + 2 * arraySize =
              entryDistance segments index + 2 * (arraySize + first.entries.length) := by
            simp only [entryDistance, entriesBefore, List.length_cons, List.take_succ_cons,
              List.flatMap_cons, List.length_append]
            omega
          rw [List.getElem?_cons_succ, induction _ found, distance]

theorem getElem?_entries (found : segments[index]? = some segment) {position : Nat}
    {entry : UInt16} (member : segment.entries[position]? = some entry) :
    (segments.flatMap Segment.entries)[entriesBefore segments index + position]? = some entry := by
  rcases List.getElem?_eq_some_iff.mp found with ⟨within, rfl⟩
  have parts : segments.flatMap Segment.entries =
      (segments.take index).flatMap Segment.entries ++ (segments[index].entries ++
        (segments.drop (index + 1)).flatMap Segment.entries) := by
    rw [← List.flatMap_cons, List.getElem_cons_drop, ← List.flatMap_append,
      List.take_append_drop]
  have inside := (List.getElem?_eq_some_iff.mp member).1
  rw [parts, entriesBefore, List.getElem?_append_right (Nat.le_add_right _ _),
    Nat.add_sub_cancel_left, List.getElem?_append_left inside, member]

end Entries

/-- Segments that a subtable has room for. They are in order, below the final segment, and all
entries of the array can be reached. -/
structure AreStorable (segments : List Segment) : Prop where
  count : segments.length ≤ 32766
  ordered : ∀ segment ∈ segments, segment.start ≤ segment.stop
  separate : segments.IsChain fun segment next => segment.stop < next.start
  last : ∀ segment ∈ segments.getLast?, segment.stop < 0xFFFF
  entries : ∀ segment ∈ segments, ∀ glyphs ∈ segment.glyphs,
    glyphs.length = segment.stop.toNat - segment.start.toNat + 1
  near : ∀ index segment, segments[index]? = some segment → segment.glyphs.isSome →
    entryDistance (withFinal segments) index ≤ 0xFFFF

def Segment.Contains (segment : Segment) (code : UInt32) : Prop :=
  segment.start.toNat ≤ code.toNat ∧ code.toNat ≤ segment.stop.toNat

theorem Segment.Contains.small {segment : Segment} {code : UInt32}
    (contains : segment.Contains code) : code.toNat ≤ 0xFFFF :=
  Nat.le_trans contains.2 (Nat.le_of_lt_succ segment.stop.toNat_lt)

theorem toNat_toUInt16 {code : UInt32} (small : code.toNat ≤ 0xFFFF) :
    code.toUInt16.toNat = code.toNat := by
  rw [UInt32.toNat_toUInt16, Nat.mod_eq_of_lt (Nat.lt_succ_of_le small)]

def IsShifted (glyph : GlyphId) (number : Nat) (delta : Int16) : Prop :=
  (glyph.toNat : Int) = (number + delta.toInt) % 65536

/-- Codes are mapped as the segments say, and all others are not mapped. -/
structure MapsAs (segments : List Segment) (glyph? : UInt32 → Option GlyphId) : Prop where
  difference : ∀ segment ∈ segments, segment.glyphs = none → ∀ code, segment.Contains code →
    ∃ glyph, glyph? code = some glyph ∧ IsShifted glyph code.toNat segment.delta
  array : ∀ segment ∈ segments, ∀ glyphs ∈ segment.glyphs, ∀ code, segment.Contains code →
    ∃ entry, glyphs[code.toNat - segment.start.toNat]? = some entry ∧
      (entry = 0 → glyph? code = none) ∧
      (entry ≠ 0 → ∃ glyph, glyph? code = some glyph ∧
        IsShifted glyph entry.toNat segment.delta)
  final : glyph? 0xFFFF = some .notdef
  elsewhere : ∀ code, code ≠ 0xFFFF → (∀ segment ∈ segments, ¬segment.Contains code) →
    glyph? code = none

namespace SegmentMap

theorem isShifted_addDelta (value : UInt16) (delta : Int16) :
    IsShifted (addDelta value delta) value.toNat delta := by
  have unsigned : delta.toUInt16.toNat = delta.toBitVec.toNat := rfl
  have signed : delta.toInt = delta.toBitVec.toInt := rfl
  rw [IsShifted, GlyphId.toNat, addDelta, UInt16.toNat_add, unsigned, signed,
    BitVec.toInt_eq_toNat_cond]
  split <;> omega

/-! The search for a segment. -/

theorem segmentFor_eq_findIdx {segments : SegmentMap}
    (ascending : segments.ends.Pairwise (· ≤ ·)) (code : UInt16) :
    segments.segmentFor code = segments.ends.findIdx fun last => code ≤ last := by
  have parted : segments.ends.Pairwise fun last later =>
      decide (later < code) → decide (last < code) := by
    apply ascending.imp
    intro last later before
    simpa using UInt16.lt_of_le_of_lt before
  have reaches : (fun last : UInt16 => !decide (last < code)) =
      fun last => decide (code ≤ last) := by
    funext last
    simp only [← decide_not, UInt16.not_lt]
  rw [segmentFor, partitionPoint_eq_findIdx parted, reaches]

/-! The map that is read from segments. -/

def ofSegments (segments : List Segment) (bytes : Bytes) : SegmentMap where
  ends := segments.map Segment.stop
  starts := segments.map Segment.start
  deltas := segments.map Segment.delta
  rangeOffsets := Cmap.rangeOffsets 0 segments
  bytes

section OfSegments

variable {segments : List Segment} {bytes : Bytes} {index : Nat} {segment : Segment}

theorem glyph?_of_segmentFor {code : UInt32} (small : code.toNat ≤ 0xFFFF)
    (chosen : (ofSegments segments bytes).segmentFor code.toUInt16 = index)
    (found : segments[index]? = some segment) :
    (ofSegments segments bytes).glyph? code =
      if code.toUInt16 < segment.start then none
      else (ofSegments segments bytes).glyphIn? index segment.start code.toUInt16 := by
  have start : (ofSegments segments bytes).starts[index]? = some segment.start := by
    simp [ofSegments, found]
  rw [glyph?, if_pos small]
  simp [chosen, start]

theorem glyphIn?_of_difference (start code : UInt16) (found : segments[index]? = some segment)
    (direct : segment.glyphs = none) :
    (ofSegments segments bytes).glyphIn? index start code =
      some (addDelta code segment.delta) := by
  have delta : (ofSegments segments bytes).deltas[index]? = some segment.delta := by
    simp [ofSegments, found]
  have offset : (ofSegments segments bytes).rangeOffsets[index]? = some 0 := by
    rw [ofSegments, getElem?_rangeOffsets 0 found, direct]
  simp [glyphIn?, delta, offset]

end OfSegments

/-! Reading a subtable. -/

def fields (length : Nat) (segments : List Segment) : Bytes :=
  (Bytes.ofNumber 2 4 ++ (Bytes.ofNumber 2 length ++ [0, 0])) ++
    (Packed.encode (UInt16.ofNat (2 * segments.length)) ++ (List.replicate 6 0 ++
      (Packed.encodeList (segments.map Segment.stop) ++ ([0, 0] ++
        (Packed.encodeList (segments.map Segment.start) ++
          (Packed.encodeList (segments.map Segment.delta) ++
            (Packed.encodeList (Cmap.rangeOffsets 0 segments) ++ [])))))))

theorem length_fields (length : Nat) (segments : List Segment) :
    (fields length segments).length = 16 + 8 * segments.length := by
  have width16 : Packed.width UInt16 = 2 := rfl
  have widthDelta : Packed.width Int16 = 2 := rfl
  simp only [fields, List.length_append, Bytes.length_ofNumber, Packed.length_encode,
    Packed.length_encodeList, List.length_map, length_rangeOffsets, List.length_replicate,
    List.length_cons, List.length_nil, width16, widthDelta]
  omega

theorem decoder_reads {segments : List Segment} (few : segments.length ≤ 32767) (length : Nat)
    (bytes : Bytes) :
    (decoder bytes).ReadsWithin (fields length segments) (ofSegments segments bytes) := by
  have count : segments.length = (UInt16.ofNat (2 * segments.length)).toNat / 2 := by
    rw [UInt16.toNat_ofNat', Nat.mod_eq_of_lt (by omega), Nat.mul_div_cancel_left _ (by decide)]
  have header : (Bytes.ofNumber 2 4 ++ (Bytes.ofNumber 2 length ++ [0, 0])).length = 6 := by
    simp
  have list {α : Type} [Packed α] (field : Segment → α) :=
    Decoder.ReadsWithin.readList ((List.length_map field).trans count)
  have offsets := Decoder.ReadsWithin.readList ((length_rangeOffsets 0 segments).trans count)
  refine (Decoder.Reads.skip header).within.bind ((Decoder.Reads.read _).within.bind ?_)
  refine (Decoder.Reads.skip List.length_replicate).within.bind ((list Segment.stop).bind ?_)
  refine (Decoder.Reads.skip rfl).within.bind ((list Segment.start).bind ?_)
  exact (list Segment.delta).bind (offsets.bind (Decoder.Reads.pure _).within)

def stored (length : Nat) (segments : List Segment) (behind : Bytes) : SegmentMap :=
  ofSegments segments (fields length segments ++
    (Packed.encodeList (segments.flatMap Segment.entries) ++ behind))

theorem glyphIn?_of_glyphs {segments : List Segment} {index : Nat} {segment : Segment}
    {glyphs : List UInt16} (length : Nat) (behind : Bytes) (start code : UInt16)
    (found : segments[index]? = some segment) (through : segment.glyphs = some glyphs)
    (near : entryDistance segments index ≤ 0xFFFF) {entry : UInt16}
    (member : glyphs[(code - start).toNat]? = some entry) :
    (stored length segments behind).glyphIn? index start code =
      if entry = 0 then none else some (addDelta entry segment.delta) := by
  have within : index < segments.length := (List.getElem?_eq_some_iff.mp found).1
  have delta : (stored length segments behind).deltas[index]? = some segment.delta := by
    simp [stored, ofSegments, found]
  have offset : (stored length segments behind).rangeOffsets[index]? =
      some (UInt16.ofNat (entryDistance segments index)) := by
    rw [stored, ofSegments, getElem?_rangeOffsets 0 found, through]
    rfl
  have number : (UInt16.ofNat (entryDistance segments index)).toNat =
      entryDistance segments index := by
    rw [UInt16.toNat_ofNat', Nat.mod_eq_of_lt (Nat.lt_succ_of_le near)]
  have notZero : UInt16.ofNat (entryDistance segments index) ≠ 0 := by
    intro zero
    rw [zero, entryDistance] at number
    have : (0 : UInt16).toNat = 0 := rfl
    omega
  -- The way from the range offset ends where the entry is in the array.
  have place : (stored length segments behind).rangeOffsetPosition index +
      entryDistance segments index + 2 * (code - start).toNat =
        (fields length segments).length +
          (entriesBefore segments index + (code - start).toNat) * Packed.width UInt16 := by
    have count : (stored length segments behind).ends.length = segments.length :=
      List.length_map _
    have width : Packed.width UInt16 = 2 := rfl
    rw [length_fields, rangeOffsetPosition, endsOffset, count, entryDistance, width]
    omega
  have inEntries : segment.entries[(code - start).toNat]? = some entry := by
    rw [Segment.entries, through]
    exact member
  have read := Bytes.readAt_encodeList (fields length segments) behind
    (getElem?_entries found inEntries)
  have bytes : (stored length segments behind).bytes = fields length segments ++
    (Packed.encodeList (segments.flatMap Segment.entries) ++ behind) := rfl
  rw [glyphIn?, delta, offset]
  simp only [Option.bind_eq_bind, Option.bind_some, if_neg notZero, number, place, bytes, read,
    Except.toOption]
  rfl

theorem exists_encodeSegments {segments : List Segment} (few : segments.length ≤ 32766)
    (behind : Bytes) :
    ∃ length, encodeSegments segments ++ behind =
      (stored length (withFinal segments) behind).bytes := by
  have few : (withFinal segments).length ≤ 32767 := by
    rw [withFinal, List.length_append, List.length_singleton]
    omega
  have count : Packed.encode (UInt16.ofNat (2 * (withFinal segments).length)) =
      Bytes.ofNumber 2 (2 * (withFinal segments).length) := by
    apply congrArg (Bytes.ofNumber 2)
    rw [UInt16.toNat_ofNat', Nat.mod_eq_of_lt (by omega)]
  rw [encodeSegments]
  generalize 4 + List.length _ = length
  refine ⟨length, ?_⟩
  rw [stored, ofSegments, fields, count]
  simp only [withFinal, List.append_assoc, List.append_nil]
  rfl

theorem ofBytes_stored {segments : List Segment} (few : segments.length ≤ 32767) (length : Nat)
    (behind : Bytes) :
    Subtable.ofBytes (stored length segments behind).bytes =
      .ok (.segments (stored length segments behind)) := by
  have format : (stored length segments behind).bytes.readAt UInt16 0 = .ok 4 :=
    Bytes.readAt_encode 4 _
  have short : (fields length segments).length ≤ lastOffset := by
    have large : 16 + 8 * 32767 ≤ lastOffset := by decide
    rw [length_fields]
    omega
  have map := (decoder_reads few length (stored length segments behind).bytes).decode short
    (Packed.encodeList (segments.flatMap Segment.entries) ++ behind)
  have decoded : (decoder (stored length segments behind).bytes).decode
      (stored length segments behind).bytes = .ok (stored length segments behind) := map
  rw [Subtable.ofBytes, format]
  simp only [bind, Except.bind, if_pos, decoded]
  rfl

end SegmentMap

/-! Segments in order. -/

namespace AreStorable

variable {segments : List Segment} (storable : AreStorable segments)

include storable

theorem ordered_withFinal : ∀ segment ∈ withFinal segments, segment.start ≤ segment.stop := by
  intro segment member
  rcases List.mem_append.mp member with inside | isFinal
  · exact storable.ordered segment inside
  · rw [List.mem_singleton.mp isFinal]
    exact UInt16.le_refl _

theorem pairwise_withFinal :
    (withFinal segments).Pairwise fun segment other => segment.stop < other.start := by
  apply pairwise_of_separate storable.ordered_withFinal
  apply List.IsChain.append storable.separate (List.isChain_singleton _)
  intro segment last final isFinal
  cases isFinal
  exact storable.last segment last

theorem ends_ascending : ((withFinal segments).map Segment.stop).Pairwise (· ≤ ·) := by
  apply List.pairwise_map.mpr
  apply storable.pairwise_withFinal.imp_of_mem
  intro segment other _ member before
  exact UInt16.le_trans (UInt16.le_of_lt before) (storable.ordered_withFinal other member)

/-- The search always finds a segment, for the final one ends at the last code. -/
theorem exists_segmentFor (bytes : Bytes) (code : UInt16) :
    ∃ segment,
      (withFinal segments)[(SegmentMap.ofSegments (withFinal segments) bytes).segmentFor code]? =
        some segment ∧ code ≤ segment.stop := by
  have ascending := storable.ends_ascending
  have isLast : code ≤ 0xFFFF := UInt16.le_iff_toNat_le.mpr (Nat.le_of_lt_succ code.toNat_lt)
  have within : ((withFinal segments).map Segment.stop).findIdx (fun last => code ≤ last) <
      ((withFinal segments).map Segment.stop).length := by
    apply List.findIdx_lt_length_of_exists
    exact ⟨0xFFFF, by simp [withFinal, Segment.final], decide_eq_true isLast⟩
  have reached := @List.findIdx_getElem _ (fun last => decide (code ≤ last)) _ within
  rw [List.getElem_map] at reached
  rw [SegmentMap.segmentFor_eq_findIdx ascending]
  exact ⟨_, List.getElem?_eq_getElem (by rwa [List.length_map] at within),
    of_decide_eq_true reached⟩

theorem segmentFor_of_contains (bytes : Bytes) {code : UInt16} {index : Nat} {segment : Segment}
    (found : (withFinal segments)[index]? = some segment) (low : segment.start ≤ code)
    (high : code ≤ segment.stop) :
    (SegmentMap.ofSegments (withFinal segments) bytes).segmentFor code = index := by
  rcases List.getElem?_eq_some_iff.mp found with ⟨within, isSegment⟩
  have ascending := storable.ends_ascending
  have inEnds : index < ((withFinal segments).map Segment.stop).length := by
    rwa [List.length_map]
  rw [SegmentMap.segmentFor_eq_findIdx ascending]
  apply (List.findIdx_eq inEnds).mpr
  constructor
  · rw [List.getElem_map, isSegment]
    exact decide_eq_true high
  · intro earlier before
    have separate := List.pairwise_iff_getElem.mp storable.pairwise_withFinal earlier index
      (Nat.lt_trans before within) within before
    rw [isSegment] at separate
    rw [List.getElem_map]
    exact decide_eq_false (UInt16.not_le.mpr (UInt16.lt_of_lt_of_le separate low))

variable (length : Nat) (behind : Bytes)

theorem glyph?_of_contains {code : UInt32} {index : Nat} {segment : Segment}
    (found : (withFinal segments)[index]? = some segment) (contains : segment.Contains code) :
    (SegmentMap.stored length (withFinal segments) behind).glyph? code =
      (SegmentMap.stored length (withFinal segments) behind).glyphIn? index segment.start
        code.toUInt16 := by
  have small := contains.small
  have number := toNat_toUInt16 small
  have low : segment.start ≤ code.toUInt16 := by
    rw [UInt16.le_iff_toNat_le, number]
    exact contains.1
  have high : code.toUInt16 ≤ segment.stop := by
    rw [UInt16.le_iff_toNat_le, number]
    exact contains.2
  have chosen := storable.segmentFor_of_contains
    (SegmentMap.stored length (withFinal segments) behind).bytes found low high
  exact (SegmentMap.glyph?_of_segmentFor small chosen found).trans
    (if_neg (UInt16.not_lt.mpr low))

theorem glyph?_of_difference {segment : Segment} (member : segment ∈ segments)
    (direct : segment.glyphs = none) {code : UInt32} (contains : segment.Contains code) :
    ∃ glyph, (SegmentMap.stored length (withFinal segments) behind).glyph? code = some glyph ∧
      IsShifted glyph code.toNat segment.delta := by
  rcases List.getElem?_of_mem member with ⟨index, found⟩
  have inAll : (withFinal segments)[index]? = some segment := by
    rw [withFinal, List.getElem?_append_left (List.getElem?_eq_some_iff.mp found).1, found]
  have shifted := SegmentMap.isShifted_addDelta code.toUInt16 segment.delta
  rw [toNat_toUInt16 contains.small] at shifted
  refine ⟨_, ?_, shifted⟩
  rw [storable.glyph?_of_contains length behind inAll contains]
  exact SegmentMap.glyphIn?_of_difference _ _ inAll direct

theorem glyph?_of_glyphs {segment : Segment} (member : segment ∈ segments)
    {glyphs : List UInt16} (through : segment.glyphs = some glyphs) {code : UInt32}
    (contains : segment.Contains code) :
    ∃ entry, glyphs[code.toNat - segment.start.toNat]? = some entry ∧
      (SegmentMap.stored length (withFinal segments) behind).glyph? code =
        if entry = 0 then none else some (SegmentMap.addDelta entry segment.delta) := by
  rcases List.getElem?_of_mem member with ⟨index, found⟩
  have inAll : (withFinal segments)[index]? = some segment := by
    rw [withFinal, List.getElem?_append_left (List.getElem?_eq_some_iff.mp found).1, found]
  have number := toNat_toUInt16 contains.small
  have low : segment.start ≤ code.toUInt16 := by
    rw [UInt16.le_iff_toNat_le, number]
    exact contains.1
  have distance : (code.toUInt16 - segment.start).toNat = code.toNat - segment.start.toNat := by
    rw [UInt16.toNat_sub_of_le _ _ low, number]
  have inside : code.toNat - segment.start.toNat < glyphs.length := by
    rw [storable.entries segment member glyphs through]
    exact Nat.lt_succ_of_le (Nat.sub_le_sub_right contains.2 _)
  have exists_entry : ∃ entry, glyphs[code.toNat - segment.start.toNat]? = some entry :=
    ⟨_, List.getElem?_eq_getElem inside⟩
  rcases exists_entry with ⟨entry, isEntry⟩
  have near := storable.near index segment found (by rw [through]; rfl)
  refine ⟨entry, isEntry, ?_⟩
  rw [← distance] at isEntry
  rw [storable.glyph?_of_contains length behind inAll contains]
  exact SegmentMap.glyphIn?_of_glyphs length behind _ _ inAll through near isEntry

theorem glyph?_final :
    (SegmentMap.stored length (withFinal segments) behind).glyph? 0xFFFF = some .notdef := by
  have inAll : (withFinal segments)[segments.length]? = some Segment.final :=
    List.getElem?_concat_length
  have contains : Segment.final.Contains 0xFFFF := ⟨Nat.le_refl _, Nat.le_refl _⟩
  rw [storable.glyph?_of_contains length behind inAll contains]
  exact SegmentMap.glyphIn?_of_difference _ _ inAll rfl

theorem glyph?_elsewhere {code : UInt32} (notFinal : code ≠ 0xFFFF)
    (outside : ∀ segment ∈ segments, ¬segment.Contains code) :
    (SegmentMap.stored length (withFinal segments) behind).glyph? code = none := by
  by_cases small : code.toNat ≤ 0xFFFF
  · have number := toNat_toUInt16 small
    rcases storable.exists_segmentFor
      (SegmentMap.stored length (withFinal segments) behind).bytes code.toUInt16 with
      ⟨segment, found, reached⟩
    have high : code.toNat ≤ segment.stop.toNat := by
      rwa [UInt16.le_iff_toNat_le, number] at reached
    -- The code is in a gap before the segment that is found.
    have below : code.toUInt16 < segment.start := by
      apply UInt16.not_le.mp
      intro low
      rw [UInt16.le_iff_toNat_le, number] at low
      rcases List.mem_append.mp (List.mem_of_getElem? found) with inside | isFinal
      · exact outside segment inside ⟨low, high⟩
      · rw [List.mem_singleton.mp isFinal] at low
        exact notFinal (UInt32.toNat_inj.mp (Nat.le_antisymm small low))
    exact (SegmentMap.glyph?_of_segmentFor small rfl found).trans (if_pos below)
  · exact if_neg small

theorem mapsAs : MapsAs segments (SegmentMap.stored length (withFinal segments) behind).glyph? where
  difference _ member direct _ contains :=
    storable.glyph?_of_difference length behind member direct contains
  array segment member glyphs through code contains := by
    rcases storable.glyph?_of_glyphs length behind member through contains with
      ⟨entry, found, equal⟩
    refine ⟨entry, found, ?zero, ?nonzero⟩
    case zero =>
      intro zero
      rw [equal, if_pos zero]
    case nonzero =>
      intro nonzero
      rw [equal, if_neg nonzero]
      exact ⟨_, rfl, SegmentMap.isShifted_addDelta entry segment.delta⟩
  final := storable.glyph?_final length behind
  elsewhere _ notFinal outside := storable.glyph?_elsewhere length behind notFinal outside

end AreStorable

/-- The subtable that is read from segments maps every code as they say, whatever bytes are
behind it. -/
theorem exists_mapsAs_encodeSegments {segments : List Segment} (storable : AreStorable segments)
    (behind : Bytes) :
    ∃ subtable, Subtable.ofBytes (encodeSegments segments ++ behind) = .ok subtable ∧
      subtable.format = 4 ∧ MapsAs segments subtable.glyph? := by
  rcases SegmentMap.exists_encodeSegments storable.count behind with ⟨length, encoded⟩
  have few : (withFinal segments).length ≤ 32767 := by
    rw [withFinal, List.length_append, List.length_singleton]
    exact Nat.succ_le_succ storable.count
  rw [encoded, SegmentMap.ofBytes_stored few length behind]
  exact ⟨_, rfl, rfl, storable.mapsAs length behind⟩

/-- Two segments with entries, one of them without a glyph, and one between them that wraps. -/
theorem exists_mapsAs_encodeSegments_three :
    let segments : List Segment :=
      [{ start := 10, stop := 12, glyphs := some [7, 0, 9] },
        { start := 20, stop := 21, delta := -21 },
        { start := 30, stop := 31, delta := 2, glyphs := some [40, 0xFFFF] }]
    AreStorable segments ∧
      ∃ subtable, Subtable.ofBytes (encodeSegments segments ++ [1]) = .ok subtable ∧
        subtable.format = 4 ∧ MapsAs segments subtable.glyph? := by
  intro segments
  have storable : AreStorable segments := by
    refine ⟨by decide, by decide, by decide, by decide, by decide, ?near⟩
    intro index segment found _
    have within := (List.getElem?_eq_some_iff.mp found).1
    have all : ∀ index < 3, entryDistance (withFinal segments) index ≤ 0xFFFF := by decide
    exact all index within
  exact ⟨storable, exists_mapsAs_encodeSegments storable [1]⟩

end Letterform.Cmap
