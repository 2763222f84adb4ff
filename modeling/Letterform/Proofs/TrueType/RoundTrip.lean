import Letterform.Proofs.TrueType.StoredPoints
import Mathlib.Data.List.Chain

/-!
Simple glyphs come back from their bytes. The header, the ends of the contours and the points
are read as they were written, and the byte that makes the length even is never looked at.
That fails for points with the same flags in a row whose number needs more than one byte.
-/

namespace Letterform

theorem Decoder.readBox_reads (box : Box Int16) : readBox.Reads box.encode box :=
  (Reads.read box.xMin).bind ((Reads.read box.yMin).bind ((Reads.read box.xMax).bind
    ((Reads.read box.yMax).bind (.pure box))))

namespace TrueType

/-! The layout of a glyph. -/

theorem padEven_eq (bytes : Bytes) :
    ∃ padding, padEven bytes = bytes ++ padding ∧ padding.length ≤ 1 := by
  rw [padEven]
  split
  · exact ⟨[], (List.append_nil bytes).symm, Nat.zero_le 1⟩
  · exact ⟨[0], rfl, Nat.le_refl 1⟩

theorem Glyph.ofBytes_eq {bytes : Bytes} {first : Int16}
    (start : bytes.readAt Int16 0 = .ok first) (long : headerLength ≤ bytes.length) :
    ofBytes bytes = decoder.decode bytes := by
  rw [ofBytes, start, Bytes.requireLength, if_neg (Nat.not_lt.mpr long)]
  rfl

theorem encode_ofNat {count : Nat} (bound : count ≤ 32767) :
    Packed.encode (Int16.ofNat count) = Bytes.ofNumber 2 count := by
  have same : (Int16.ofNat count).toUInt16.toNat = count := by
    show (UInt16.ofNat count).toNat = count
    rw [UInt16.toNat_ofNat', Nat.mod_eq_of_lt (by omega)]
  show Bytes.ofNumber 2 (Int16.ofNat count).toUInt16.toNat = _
  rw [same]

theorem toInt_ofNat {count : Nat} (bound : count ≤ 32767) : (Int16.ofNat count).toInt = count :=
  Int16.toInt_ofNat_of_lt (by omega)

theorem length_contourEnds (count : Nat) (contours : List (List StoredPoint)) :
    (contourEnds count contours).length = contours.length := by
  induction contours generalizing count with
  | nil => rfl
  | cons contour contours induction => exact congrArg (· + 1) (induction _)

def storedGlyph (contours : List (List StoredPoint)) (padding : Bytes) : SimpleGlyph where
  box := boxAround contours.flatten
  ends := contourEnds 0 contours
  instructions := []
  packed := encodePoints contours.flatten ++ padding

def storedBytes (contours : List (List StoredPoint)) (padding : Bytes) : Bytes :=
  Packed.encode (Int16.ofNat contours.length) ++ ((boxAround contours.flatten).encode ++
    (Packed.encodeList (contourEnds 0 contours) ++
      ([0, 0] ++ (encodePoints contours.flatten ++ padding))))

theorem encodeContours_eq {contours : List (List StoredPoint)} (count : contours.length ≤ 32767) :
    ∃ padding, encodeContours contours = storedBytes contours padding ∧ padding.length ≤ 1 := by
  rcases padEven_eq (Bytes.ofNumber 2 contours.length ++ (boxAround contours.flatten).encode ++
    Packed.encodeList (contourEnds 0 contours) ++ [0, 0] ++ encodePoints contours.flatten) with
    ⟨padding, padded, short⟩
  refine ⟨padding, ?_, short⟩
  rw [encodeContours, padded, storedBytes, encode_ofNat count]
  simp only [List.append_assoc]

theorem decoder_run_stored (contours : List (List StoredPoint)) (padding : Bytes) {position : Nat}
    (bound : position + contours.length * 2 ≤ lastOffset) :
    ((SimpleGlyph.decoder (boxAround contours.flatten) contours.length).run
      { rest := Packed.encodeList (contourEnds 0 contours) ++
          ([0, 0] ++ (encodePoints contours.flatten ++ padding)), position }).1 =
        .ok (storedGlyph contours padding) := by
  have instructionLength : (Decoder.read UInt16).Reads [0, 0] 0 :=
    Decoder.reads_read_iff.mpr ⟨rfl, by decide⟩
  have instructions : (Decoder.takeBytes 0).Reads [] [] := .takeBytes []
  rw [← length_contourEnds 0 contours] at bound ⊢
  rw [SimpleGlyph.decoder, Decoder.run_bind, Decoder.readList_run _ _ bound]
  simp only
  rw [instructionLength.run_bind]
  exact congrArg Prod.fst (instructions.run_bind _ (encodePoints contours.flatten ++ padding) _)

theorem decode_storedBytes {contours : List (List StoredPoint)} (count : contours.length ≤ 32767)
    (padding : Bytes) :
    Glyph.decoder.decode (storedBytes contours padding) =
      .ok (.simple (storedGlyph contours padding)) := by
  have number : (Int16.ofNat contours.length).toInt = contours.length := toInt_ofNat count
  have isSimple : 0 ≤ Int16.ofNat contours.length := by
    rw [Int16.le_iff_toInt_le, number]
    exact Int.natCast_nonneg _
  have countLength : (Packed.encode (Int16.ofNat contours.length)).length = 2 :=
    Packed.length_encode _
  have boxLength : (boxAround contours.flatten).encode.length = 8 := rfl
  have bound : 0 + 2 + 8 + contours.length * 2 ≤ lastOffset := by
    have large : 65544 ≤ lastOffset := by decide
    omega
  have simple := decoder_run_stored contours padding bound
  rw [storedBytes, Decoder.decode, Glyph.decoder, Cursor.ofBytes, (Decoder.Reads.read _).run_bind,
    (Decoder.readBox_reads _).run_bind, if_pos isSimple, number, Int.toNat_natCast,
    Decoder.run_bind, countLength, boxLength]
  generalize (SimpleGlyph.decoder _ _).run _ = result at simple ⊢
  rcases result with ⟨value, last⟩
  cases simple
  rfl

theorem ofBytes_encodeContours {contours : List (List StoredPoint)}
    (count : contours.length ≤ 32767) :
    ∃ padding, Glyph.ofBytes (encodeContours contours) =
      .ok (.simple (storedGlyph contours padding)) ∧ padding.length ≤ 1 := by
  rcases encodeContours_eq count with ⟨padding, bytes, short⟩
  refine ⟨padding, ?_, short⟩
  have start : (storedBytes contours padding).readAt Int16 0 =
      .ok (Int16.ofNat contours.length) :=
    Bytes.readAt_encode _ _
  have long : Glyph.headerLength ≤ (storedBytes contours padding).length := by
    have boxLength : (boxAround contours.flatten).encode.length = 8 := rfl
    have width : Packed.width Int16 = 2 := rfl
    rw [storedBytes, List.length_append, List.length_append, Packed.length_encode, boxLength, width,
      Glyph.headerLength]
    omega
  rw [bytes, Glyph.ofBytes_eq start long, decode_storedBytes count]

/-! Contours. -/

structure IsStorable (contours : List (List StoredPoint)) : Prop where
  contourCount : contours.length ≤ 32767
  firstNonempty : ∀ first ∈ contours.head?, first ≠ []
  pointCount : contours.flatten.length ≤ 65535
  nearX : (0 :: contours.flatten.map StoredPoint.x).IsChain IsNear
  nearY : (0 :: contours.flatten.map StoredPoint.y).IsChain IsNear

def runningCounts (contours : List (List StoredPoint)) : List Nat :=
  (List.range contours.length).map fun index => (contours.take (index + 1)).flatten.length

structure SimpleGlyph.Holds (glyph : SimpleGlyph) (contours : List (List StoredPoint)) : Prop where
  box : glyph.box = boxAround contours.flatten
  contourCount : glyph.contourCount.toInt = contours.length
  ends : glyph.ends.map (fun last => last.toNat + 1) = runningCounts contours
  instructions : glyph.instructions = []
  pointCount : glyph.pointCount = contours.flatten.length
  points : glyph.points = .ok (contours.flatten.map StoredPoint.toCurvePoint)

def ReadsBack (contours : List (List StoredPoint)) : Prop :=
  ∃ glyph, Glyph.ofBytes (encodeContours contours) = .ok (.simple glyph) ∧ glyph.Holds contours

theorem runningCounts_cons (contour : List StoredPoint) (contours : List (List StoredPoint)) :
    runningCounts (contour :: contours) =
      contour.length :: (runningCounts contours).map (contour.length + ·) := by
  rw [runningCounts, List.length_cons, List.range_succ_eq_map, List.map_cons, List.map_map,
    runningCounts, List.map_map]
  simp [Function.comp_def]

theorem getLast?_runningCounts (contours : List (List StoredPoint)) :
    (runningCounts contours).getLast?.getD 0 = contours.flatten.length := by
  rw [runningCounts, List.getLast?_map, List.getLast?_range]
  cases contours with
  | nil => rfl
  | cons contour contours =>
      have whole : (contour :: contours).take (contours.length + 1) = contour :: contours :=
        List.take_length (l := contour :: contours)
      rw [if_neg (by simp)]
      exact congrArg (fun part : List (List StoredPoint) => part.flatten.length) whole

theorem toNat_contourEnds {count : Nat} {contours : List (List StoredPoint)}
    (nonempty : 0 < count ∨ ∀ first ∈ contours.head?, first ≠ [])
    (bound : count + contours.flatten.length ≤ 65535) :
    (contourEnds count contours).map (fun last => last.toNat + 1) =
      (runningCounts contours).map (count + ·) := by
  induction contours generalizing count with
  | nil => rfl
  | cons contour contours induction =>
      have positive : 0 < count + contour.length := by
        rcases nonempty with started | nonempty
        · omega
        · have := List.length_pos_iff.mpr (nonempty contour rfl)
          omega
      rw [List.flatten_cons, List.length_append] at bound
      have last : (UInt16.ofNat (count + contour.length - 1)).toNat + 1 =
          count + contour.length := by
        rw [UInt16.toNat_ofNat', Nat.mod_eq_of_lt (by omega)]
        omega
      rw [contourEnds, List.map_cons, last, induction (.inl positive) (by omega),
        runningCounts_cons, List.map_cons, List.map_map]
      simp [Function.comp_def, Nat.add_assoc]

theorem ends_storedGlyph {contours : List (List StoredPoint)} (storable : IsStorable contours)
    (padding : Bytes) :
    (storedGlyph contours padding).ends.map (fun last => last.toNat + 1) =
      runningCounts contours := by
  have ends := toNat_contourEnds (.inr storable.firstNonempty)
    ((Nat.zero_add _).trans_le storable.pointCount)
  simp only [Nat.zero_add, List.map_id'] at ends
  exact ends

theorem pointCount_storedGlyph {contours : List (List StoredPoint)} (storable : IsStorable contours)
    (padding : Bytes) :
    (storedGlyph contours padding).pointCount = contours.flatten.length := by
  rw [SimpleGlyph.pointCount, ← List.getLast?_map, ends_storedGlyph storable,
    getLast?_runningCounts]

/-- A glyph gives back its contours unless too many points in a row have the same flags. -/
theorem readsBack_of_shortRuns {contours : List (List StoredPoint)}
    (storable : IsStorable contours)
    (short : HasShortRuns (storedFlags contours.flatten)) : ReadsBack contours := by
  rcases ofBytes_encodeContours storable.contourCount with ⟨padding, read, -⟩
  have pointCount := pointCount_storedGlyph storable padding
  refine ⟨_, read, rfl, ?_, ends_storedGlyph storable padding, rfl, pointCount, ?_⟩
  · rw [SimpleGlyph.contourCount, storedGlyph, length_contourEnds]
    exact toInt_ofNat storable.contourCount
  · have reads := pointsDecoder_reads_encodePoints storable.nearX storable.nearY short
    rw [SimpleGlyph.points, pointCount]
    exact congrArg Prod.fst (reads padding 0)

/-- A run, an empty contour, and differences of one byte and of two. -/
theorem readsBack_of_shortRuns_small :
    let contours : List (List StoredPoint) :=
      [[⟨5, 0, true⟩, ⟨12, 0, true⟩, ⟨19, 0, true⟩], [], [⟨-300, -2, false⟩]]
    IsStorable contours ∧ HasShortRuns (storedFlags contours.flatten) ∧ ReadsBack contours := by
  intro contours
  have storable : IsStorable contours := by
    refine ⟨by decide, ?_, by decide, ?_, ?_⟩
    · rintro first ⟨⟩
      exact List.cons_ne_nil _ _
    · simp [contours, IsNear]
    · simp [contours, IsNear]
  have short : HasShortRuns (storedFlags contours.flatten) := by
    intro flags count stretch
    have bound := stretch.length_le
    rw [List.length_replicate] at bound
    exact bound.trans (by decide)
  exact ⟨storable, short, readsBack_of_shortRuns storable short⟩

/-! Runs that are too long. -/

/-- A byte of flags stands for no more than 128 points, if only on average. -/
theorem FlagSection.length_le {bytes : Bytes} {flags : List UInt8}
    (isSection : FlagSection bytes flags) : flags.length ≤ 128 * bytes.length := by
  induction isSection with
  | empty => exact Nat.zero_le _
  | single _ _ induction =>
      rw [List.length_cons, List.length_cons]
      omega
  | @run flag more bytes flags _ _ induction =>
      have bound : more.toNat < 256 := more.toNat_lt
      rw [List.length_append, List.length_replicate, List.length_cons, List.length_cons]
      omega

theorem FlagSection.length_le_of_run {flag more : UInt8} {bytes behind left : Bytes}
    {flags : List UInt8} (isSection : FlagSection bytes flags) (isRun : HasBit flag 3)
    (whole : [flag, more] ++ left = bytes ++ behind) :
    flags.length ≤ more.toNat + 1 + 128 * left.length := by
  cases isSection with
  | empty => exact Nat.zero_le _
  | single isSingle =>
      simp only [List.cons_append, List.cons.injEq] at whole
      exact absurd (whole.1 ▸ isRun) isSingle
  | @run first count bytes flags _ others =>
      simp only [List.cons_append, List.nil_append, List.cons.injEq] at whole
      rcases whole with ⟨-, rfl, rfl⟩
      have bound := others.length_le
      rw [List.length_append, List.length_replicate, List.length_append]
      omega

theorem runs_replicate {α : Type} [DecidableEq α] (value : α) (count : Nat) :
    runs (List.replicate (count + 1) value) = [(value, count + 1)] := by
  induction count with
  | zero => rfl
  | succ count induction =>
      rw [List.replicate_succ, runs, induction]
      simp

theorem differences_replicate (value : Int16) (count : Nat) :
    differences value (List.replicate count value) = List.replicate count 0 := by
  induction count with
  | zero => rfl
  | succ count induction =>
      rw [List.replicate_succ, differences, induction, Int16.sub_self, List.replicate_succ]

def startPoint : StoredPoint := ⟨0, 0, true⟩

theorem encodePoints_replicate {count : Nat} (long : 1 < count) :
    encodePoints (List.replicate count startPoint) = [0x39, UInt8.ofNat (count - 1)] := by
  have x : differences 0 ((List.replicate count startPoint).map StoredPoint.x) =
      List.replicate count 0 := by
    rw [List.map_replicate]
    exact differences_replicate 0 count
  have y : differences 0 ((List.replicate count startPoint).map StoredPoint.y) =
      List.replicate count 0 := by
    rw [List.map_replicate]
    exact differences_replicate 0 count
  have flags : storedFlags (List.replicate count startPoint) =
      List.replicate count (PlacedPoint.flags (startPoint, 0, 0)) := by
    rw [storedFlags, placedPoints, x, y, List.zip_replicate', List.zip_replicate',
      List.map_replicate]
  have nothing : (List.replicate count (0 : Int16)).flatMap DeltaForm.encode = [] := by
    rw [List.flatMap_eq_nil_iff]
    intro difference member
    rw [List.eq_of_mem_replicate member]
    rfl
  have run : runs (List.replicate count (PlacedPoint.flags (startPoint, 0, 0))) =
      [(PlacedPoint.flags (startPoint, 0, 0), count)] := by
    have split : count = count - 1 + 1 := by omega
    rw [split, runs_replicate]
  have flagByte : Packed.encode (PlacedPoint.flags (startPoint, 0, 0) ∪ PointFlags.repeated) =
      [0x39] := by
    decide
  rw [encodePoints_eq, flags, x, y, nothing, run, List.flatMap_singleton, encodeFlagRun,
    if_pos long, flagByte]
  rfl

theorem isStorable_replicate {count : Nat} (positive : 0 < count) (bound : count ≤ 65535) :
    IsStorable [List.replicate count startPoint] := by
  have near : IsNear 0 0 := ⟨by decide, by decide⟩
  refine ⟨Nat.one_le_iff_ne_zero.mpr (by simp), ?_, by simpa using bound, ?_, ?_⟩
  · rintro first ⟨⟩
    exact List.ne_nil_of_length_pos (by simpa using positive)
  · rw [List.flatten_singleton, List.map_replicate]
    exact List.isChain_replicate_of_rel (count + 1) near
  · rw [List.flatten_singleton, List.map_replicate]
    exact List.isChain_replicate_of_rel (count + 1) near

/-- Only the low eight bits of the number are written, so that points are missing. -/
theorem not_readsBack_replicate {count : Nat} (long : 256 < count) :
    ¬ReadsBack [List.replicate count startPoint] := by
  rintro ⟨glyph, read, holds⟩
  have one : [List.replicate count startPoint].length ≤ 32767 := by simp
  rcases ofBytes_encodeContours one with ⟨padding, stored, short⟩
  cases Glyph.simple.inj (Except.ok.inj (read.symm.trans stored))
  have points := holds.points
  rw [SimpleGlyph.points, holds.pointCount, List.flatten_singleton, List.length_replicate,
    (pointsDecoder_isExact count).decode_eq_ok_iff] at points
  rcases points with ⟨taken, rest, whole, reads⟩
  rcases pointsDecoder_reads_iff.mp reads with ⟨flags, xs, ys, packed, length, -⟩
  rw [storedGlyph, List.flatten_singleton, encodePoints_replicate (by omega)] at whole
  cases packed with
  | sections flagSection xSection ySection =>
      rw [List.append_assoc] at whole
      have isRun : HasBit 0x39 3 := rfl
      have most := flagSection.length_le_of_run isRun whole
      rw [UInt8.toNat_ofNat'] at most
      omega

/-- One point more than a byte can say are stored and do not come back. -/
theorem stored_of_run_257 :
    IsStorable [List.replicate 257 startPoint] ∧ ¬ReadsBack [List.replicate 257 startPoint] := by
  have positive : 0 < 257 := by decide
  have bound : 257 ≤ 65535 := by decide
  have long : 256 < 257 := by decide
  exact ⟨isStorable_replicate positive bound, not_readsBack_replicate long⟩

end TrueType

end Letterform
