import Letterform.Proofs.TrueType.PackedPoints
import Mathlib.Data.List.Forall2

/-!
Stored points come back. Every difference is read from the bytes that are written for it, and
the flags tell how. Runs of equal flags are read as they were, up to the flag that makes them
runs, as long as their number is not too large for its byte.
-/

namespace Letterform.TrueType

/-! Runs. -/

section Runs

variable {α : Type}

def expandRuns (runs : List (α × Nat)) : List α :=
  runs.flatMap fun run => List.replicate run.2 run.1

theorem expandRuns_cons (run : α × Nat) (runs : List (α × Nat)) :
    expandRuns (run :: runs) = List.replicate run.2 run.1 ++ expandRuns runs :=
  List.flatMap_cons

/-- No more than 256 equal values stand together. -/
def HasShortRuns (values : List α) : Prop :=
  ∀ value count, List.replicate count value <:+: values → count ≤ 256

variable [DecidableEq α]

theorem expandRuns_runs (values : List α) : expandRuns (runs values) = values := by
  induction values with
  | nil => rfl
  | cons value values induction =>
      rw [runs]
      split
      · next first count others equal =>
          rw [equal, expandRuns_cons] at induction
          split
          · next same =>
              rw [expandRuns_cons, List.replicate_succ, List.cons_append, ← same, induction]
          · rw [expandRuns_cons, expandRuns_cons, induction]
            rfl
      · next equal =>
          rw [equal] at induction
          rw [← induction]
          rfl

theorem pos_of_mem_runs {values : List α} {run : α × Nat} (member : run ∈ runs values) :
    0 < run.2 := by
  induction values with
  | nil => cases member
  | cons value values induction =>
      rw [runs] at member
      split at member
      · next first count others equal =>
          rw [equal] at induction
          split at member
          · rcases List.mem_cons.mp member with rfl | member
            · exact Nat.succ_pos count
            · exact induction (List.mem_cons_of_mem _ member)
          · rcases List.mem_cons.mp member with rfl | member
            · exact Nat.one_pos
            · exact induction member
      · rw [List.mem_singleton.mp member]
        exact Nat.one_pos

theorem replicate_infix_of_mem_runs {values : List α} {run : α × Nat}
    (member : run ∈ runs values) : List.replicate run.2 run.1 <:+: values := by
  rcases List.append_of_mem member with ⟨before, behind, split⟩
  have expanded := expandRuns_runs values
  rw [split, expandRuns, List.flatMap_append, List.flatMap_cons] at expanded
  exact ⟨_, _, (List.append_assoc _ _ _).trans expanded⟩

end Runs

/-! Flags. -/

namespace DeltaForm

def isShort (difference : Int16) : Bool :=
  difference ≠ 0 && difference.toInt.natAbs ≤ 255

def isPositiveOrSame (difference : Int16) : Bool :=
  difference = 0 || difference.toInt.natAbs ≤ 255 && 0 < difference

end DeltaForm

namespace PointFlags

def toByte (flags : PointFlags) : UInt8 := .ofBitVec flags.bits

theorem ofByte_toByte (flags : PointFlags) : ofByte flags.toByte = flags :=
  FlagSet.ofBits_bits flags

theorem encode_eq (flags : PointFlags) : Packed.encode flags = [flags.toByte] := by
  show Bytes.ofNumber 1 flags.toByte.toNat = [flags.toByte]
  rw [Bytes.ofNumber, Bytes.ofNumber, Nat.pow_zero, Nat.div_one, UInt8.ofNat_toNat]

def flagIf (flag : PointFlags) (isSet : Bool) : PointFlags := if isSet then flag else .empty

def telling (isOnCurve isShortX isSameX isShortY isSameY : Bool) : PointFlags :=
  onCurve.flagIf isOnCurve ∪ (shortX.flagIf isShortX ∪ positiveOrSameX.flagIf isSameX) ∪
    (shortY.flagIf isShortY ∪ positiveOrSameY.flagIf isSameY)

theorem contains_telling : ∀ isOnCurve isShortX isSameX isShortY isSameY isRun : Bool,
    let flags := telling isOnCurve isShortX isSameX isShortY isSameY ∪ repeated.flagIf isRun
    flags.contains onCurve = isOnCurve ∧
      (flags.contains shortX = isShortX ∧ flags.contains positiveOrSameX = isSameX) ∧
      (flags.contains shortY = isShortY ∧ flags.contains positiveOrSameY = isSameY) ∧
      flags.contains repeated = isRun := by
  decide

end PointFlags

theorem DeltaForm.flagsFor_eq (form : DeltaForm) (difference : Int16) :
    form.flagsFor difference = form.short.flagIf (isShort difference) ∪
      form.positiveOrSame.flagIf (isPositiveOrSame difference) := by
  rw [flagsFor, isShort, isPositiveOrSame, PointFlags.flagIf, PointFlags.flagIf]
  by_cases zero : difference = 0
  · simp [zero, FlagSet.empty_union]
  · by_cases near : difference.toInt.natAbs ≤ 255
    · by_cases positive : 0 < difference
      · simp [zero, near, positive]
      · simp [zero, near, positive, FlagSet.union_empty]
    · simp [zero, near, FlagSet.union_empty]

abbrev PlacedPoint := StoredPoint × Int16 × Int16

def PlacedPoint.flags (placed : PlacedPoint) : PointFlags :=
  (if placed.1.isOnCurve then PointFlags.onCurve else .empty) ∪
    DeltaForm.x.flagsFor placed.2.1 ∪ DeltaForm.y.flagsFor placed.2.2

theorem PlacedPoint.flags_eq (placed : PlacedPoint) :
    placed.flags = PointFlags.telling placed.1.isOnCurve
      (DeltaForm.isShort placed.2.1) (DeltaForm.isPositiveOrSame placed.2.1)
      (DeltaForm.isShort placed.2.2) (DeltaForm.isPositiveOrSame placed.2.2) := by
  rw [flags, DeltaForm.flagsFor_eq, DeltaForm.flagsFor_eq]
  rfl

def DeltaForm.Describes (form : DeltaForm) (flags : PointFlags) (difference : Int16) : Prop :=
  flags.contains form.short = isShort difference ∧
    flags.contains form.positiveOrSame = isPositiveOrSame difference

structure PlacedPoint.DescribedBy (flags : PointFlags) (placed : PlacedPoint) : Prop where
  onCurve : flags.contains PointFlags.onCurve = placed.1.isOnCurve
  x : DeltaForm.x.Describes flags placed.2.1
  y : DeltaForm.y.Describes flags placed.2.2

def PointFlags.AgreeButForRun (flags bare : PointFlags) : Prop :=
  ∃ isRun, flags = bare ∪ PointFlags.repeated.flagIf isRun

theorem PlacedPoint.describedBy_of_agree {flags : PointFlags} {placed : PlacedPoint}
    (agree : flags.AgreeButForRun placed.flags) : placed.DescribedBy flags := by
  rcases agree with ⟨isRun, rfl⟩
  rw [flags_eq]
  rcases PointFlags.contains_telling placed.1.isOnCurve
    (DeltaForm.isShort placed.2.1) (DeltaForm.isPositiveOrSame placed.2.1)
    (DeltaForm.isShort placed.2.2) (DeltaForm.isPositiveOrSame placed.2.2) isRun with
    ⟨onCurve, x, y, -⟩
  exact ⟨onCurve, x, y⟩

theorem PlacedPoint.not_repeated (placed : PlacedPoint) :
    placed.flags.contains PointFlags.repeated = false := by
  rw [flags_eq, ← FlagSet.union_empty (PointFlags.telling _ _ _ _ _)]
  exact (PointFlags.contains_telling _ _ _ _ _ false).2.2.2

/-! Runs of flags. -/

namespace PointFlags

def ofRun (run : PointFlags × Nat) : PointFlags := run.1 ∪ repeated.flagIf (1 < run.2)

theorem contains_repeated_union (flags : PointFlags) :
    (flags ∪ repeated).contains repeated = true := by
  apply decide_eq_true
  show (flags.bits ||| repeated.bits) &&& repeated.bits = repeated.bits
  ext index bound
  rw [BitVec.getElem_and, BitVec.getElem_or, Bool.and_eq_right_iff_imp]
  exact fun isSet => Bool.or_eq_true_iff.mpr (.inr isSet)

end PointFlags

theorem FlagSection.append {first second : Bytes} {flags others : List UInt8}
    (firstSection : FlagSection first flags) (secondSection : FlagSection second others) :
    FlagSection (first ++ second) (flags ++ others) := by
  induction firstSection with
  | empty => exact secondSection
  | single isSingle _ induction => exact .single isSingle induction
  | run isRun _ induction =>
      rw [List.append_assoc]
      exact .run isRun induction

/-- One flag byte, perhaps with a number behind it, stands for a whole run. -/
theorem flagSection_encodeFlagRun {run : PointFlags × Nat} (positive : 0 < run.2)
    (short : run.2 ≤ 256) (isBare : run.1.contains PointFlags.repeated = false) :
    FlagSection (encodeFlagRun run) (List.replicate run.2 (PointFlags.ofRun run).toByte) := by
  by_cases isRun : 1 < run.2
  · have hasNumber : HasBit (run.1 ∪ PointFlags.repeated).toByte 3 := by
      rw [← PointFlags.contains_repeated, PointFlags.ofByte_toByte]
      exact PointFlags.contains_repeated_union run.1
    have number : (UInt8.ofNat (run.2 - 1)).toNat + 1 = run.2 := by
      rw [UInt8.toNat_ofNat']
      omega
    have whole := @FlagSection.run _ (UInt8.ofNat (run.2 - 1)) _ _ hasNumber .empty
    rw [number, List.append_nil] at whole
    rw [encodeFlagRun, if_pos isRun, PointFlags.encode_eq, PointFlags.ofRun, decide_eq_true isRun]
    exact whole
  · have isSingle : run.2 = 1 := by omega
    rw [encodeFlagRun, if_neg isRun, PointFlags.encode_eq, PointFlags.ofRun,
      decide_eq_false isRun, PointFlags.flagIf, if_neg Bool.false_ne_true, FlagSet.union_empty,
      isSingle]
    apply FlagSection.single _ .empty
    rw [← PointFlags.contains_repeated, PointFlags.ofByte_toByte, isBare]
    exact Bool.false_ne_true

def writtenFlags (runs : List (PointFlags × Nat)) : List PointFlags :=
  runs.flatMap fun run => List.replicate run.2 (PointFlags.ofRun run)

theorem writtenFlags_cons (run : PointFlags × Nat) (runs : List (PointFlags × Nat)) :
    writtenFlags (run :: runs) =
      List.replicate run.2 (PointFlags.ofRun run) ++ writtenFlags runs :=
  List.flatMap_cons

theorem flagSection_encodeFlagRuns {runs : List (PointFlags × Nat)}
    (short : ∀ run ∈ runs, 0 < run.2 ∧ run.2 ≤ 256 ∧ run.1.contains PointFlags.repeated = false) :
    FlagSection (runs.flatMap encodeFlagRun) ((writtenFlags runs).map PointFlags.toByte) := by
  induction runs with
  | nil => exact .empty
  | cons run runs induction =>
      rcases List.forall_mem_cons.mp short with ⟨⟨positive, bound, isBare⟩, others⟩
      rw [List.flatMap_cons, writtenFlags_cons, List.map_append, List.map_replicate]
      exact (flagSection_encodeFlagRun positive bound isBare).append (induction others)

theorem writtenFlags_agree (runs : List (PointFlags × Nat)) :
    List.Forall₂ PointFlags.AgreeButForRun (writtenFlags runs) (expandRuns runs) := by
  induction runs with
  | nil => exact .nil
  | cons run runs induction =>
      have agree : (PointFlags.ofRun run).AgreeButForRun run.1 := ⟨_, rfl⟩
      rw [writtenFlags_cons, expandRuns_cons]
      generalize run.2 = count
      induction count with
      | zero => exact induction
      | succ count all => exact .cons agree all

/-- The flags are read as they were, but for the one of the runs. -/
theorem flagsDecoder_reads_runs {flags : List PointFlags} (short : HasShortRuns flags)
    (isBare : ∀ bare ∈ flags, bare.contains PointFlags.repeated = false) :
    ∃ written, (flagsDecoder flags.length).Reads ((runs flags).flatMap encodeFlagRun) written ∧
      List.Forall₂ PointFlags.AgreeButForRun written flags := by
  have agree := writtenFlags_agree (runs flags)
  rw [expandRuns_runs] at agree
  refine ⟨writtenFlags (runs flags), ?_, agree⟩
  have isSection : FlagSection ((runs flags).flatMap encodeFlagRun)
      ((writtenFlags (runs flags)).map PointFlags.toByte) := by
    apply flagSection_encodeFlagRuns
    intro run member
    have positive : 0 < run.2 := pos_of_mem_runs member
    have stretch : List.replicate run.2 run.1 <:+: flags := replicate_infix_of_mem_runs member
    have isFlag : run.1 ∈ flags := stretch.subset (List.mem_replicate.mpr ⟨positive.ne', rfl⟩)
    exact ⟨positive, short _ _ stretch, isBare _ isFlag⟩
  have inverse : PointFlags.ofByte ∘ PointFlags.toByte = id := funext PointFlags.ofByte_toByte
  have reads := flagsDecoder_reads isSection
  rwa [List.length_map, agree.length_eq, List.map_map, inverse, List.map_id] at reads

/-! Differences. -/

namespace DeltaForm

theorem toInt32_eq (value : Int16) : value.toInt32 = .ofInt value.toInt := by
  rw [← Int16.toInt_toInt32, Int32.ofInt_toInt]

theorem signed_natAbs (difference : Int16) :
    (if 0 < difference then Int32.ofNat difference.toInt.natAbs
      else -Int32.ofNat difference.toInt.natAbs) = difference.toInt32 := by
  rw [toInt32_eq]
  split
  · next positive =>
      have nonnegative : 0 ≤ difference.toInt := (Int16.lt_iff_toInt_lt.mp positive).le
      exact congrArg Int32.ofInt (Int.natAbs_of_nonneg nonnegative)
  · next notPositive =>
      have nonpositive : difference.toInt ≤ (0 : Int16).toInt :=
        not_lt.mp fun positive => notPositive (Int16.lt_iff_toInt_lt.mpr positive)
      have negated : -(difference.toInt.natAbs : Int) = difference.toInt := by
        rw [Int.ofNat_natAbs_of_nonpos nonpositive, Int.neg_neg]
      exact (Int32.ofInt_neg _).symm.trans (congrArg Int32.ofInt negated)

theorem decoder_reads_encode {form : DeltaForm} {flags : PointFlags} {difference : Int16}
    (described : form.Describes flags difference) :
    (form.decoder flags).Reads (encode difference) difference.toInt32 := by
  rcases described with ⟨short, same⟩
  rw [decoder, encode, short, same]
  by_cases zero : difference = 0
  · subst zero
    exact .pure 0
  · by_cases near : difference.toInt.natAbs ≤ 255
    · have isShort : isShort difference = true := by simp [DeltaForm.isShort, zero, near]
      have sign : isPositiveOrSame difference = decide (0 < difference) := by
        simp [isPositiveOrSame, zero, near]
      have byte : (UInt8.ofNat difference.toInt.natAbs).toNat = difference.toInt.natAbs := by
        rw [UInt8.toNat_ofNat', Nat.mod_eq_of_lt (Nat.lt_succ_of_le near)]
      rw [if_pos isShort, if_neg zero, if_pos near, sign, ← List.append_nil [_]]
      refine Decoder.Reads.bind (reads_byte_iff.mpr rfl) ?_
      simp only [byte, decide_eq_true_eq, signed_natAbs]
      exact .pure _
    · have isLong : isShort difference = false := by simp [isShort, near]
      have differs : isPositiveOrSame difference = false := by simp [isPositiveOrSame, zero, near]
      rw [isLong, differs, if_neg zero, if_neg near, ← List.append_nil (Packed.encode _)]
      exact (Decoder.Reads.read difference).bind (.pure _)

theorem decoders_reads_encode {form : DeltaForm} {flags : List PointFlags}
    {differences : List Int16} (described : List.Forall₂ form.Describes flags differences) :
    (flags.mapM form.decoder).Reads (differences.flatMap encode)
      (differences.map Int16.toInt32) := by
  induction described with
  | nil =>
      rw [List.mapM_nil]
      exact .pure []
  | @cons flag difference flags differences first _ induction =>
      rw [List.mapM_cons, List.flatMap_cons, ← List.append_nil (differences.flatMap encode)]
      exact (decoder_reads_encode first).bind (induction.bind (.pure _))

end DeltaForm

/-- The second value is so near the first that their difference has 16 bits. -/
def IsNear (first second : Int16) : Prop :=
  -32768 ≤ second.toInt - first.toInt ∧ second.toInt - first.toInt ≤ 32767

theorem add_sub_of_isNear {first second : Int16} (near : IsNear first second) :
    first.toInt32 + (second - first).toInt32 = second.toInt32 := by
  rcases near with ⟨least, most⟩
  have difference : (second - first).toInt = second.toInt - first.toInt := by
    rw [Int16.toInt_sub]
    exact Int.bmod_eq_of_le (by omega) (by omega)
  rw [DeltaForm.toInt32_eq, DeltaForm.toInt32_eq, DeltaForm.toInt32_eq, ← Int32.ofInt_add,
    difference, add_sub_cancel]

/-- Adding up differences that fit leads through the values again. -/
theorem runningSums_differences {last : Int16} {values : List Int16}
    (near : (last :: values).IsChain IsNear) :
    runningSums last.toInt32 ((differences last values).map Int16.toInt32) =
      values.map Int16.toInt32 := by
  induction values generalizing last with
  | nil => rfl
  | cons value values induction =>
      rcases List.isChain_cons_cons.mp near with ⟨first, others⟩
      rw [differences, List.map_cons, runningSums, add_sub_of_isNear first, induction others]
      rfl

theorem length_differences (last : Int16) (values : List Int16) :
    (differences last values).length = values.length := by
  induction values generalizing last with
  | nil => rfl
  | cons value values induction => exact congrArg (· + 1) (induction value)

/-! Points. -/

def placedPoints (points : List StoredPoint) : List PlacedPoint :=
  points.zip ((differences 0 (points.map StoredPoint.x)).zip
    (differences 0 (points.map StoredPoint.y)))

def storedFlags (points : List StoredPoint) : List PointFlags :=
  (placedPoints points).map PlacedPoint.flags

theorem encodePoints_eq (points : List StoredPoint) :
    encodePoints points = (runs (storedFlags points)).flatMap encodeFlagRun ++
      ((differences 0 (points.map StoredPoint.x)).flatMap DeltaForm.encode ++
        (differences 0 (points.map StoredPoint.y)).flatMap DeltaForm.encode) :=
  List.append_assoc _ _ _

theorem placedPoints_point (points : List StoredPoint) :
    (placedPoints points).map Prod.fst = points := by
  apply List.map_fst_zip
  simp [length_differences]

theorem placedPoints_differences (points : List StoredPoint) :
    (placedPoints points).map Prod.snd = (differences 0 (points.map StoredPoint.x)).zip
      (differences 0 (points.map StoredPoint.y)) := by
  apply List.map_snd_zip
  simp [length_differences]

theorem placedPoints_x (points : List StoredPoint) :
    (placedPoints points).map (fun placed => placed.2.1) =
      differences 0 (points.map StoredPoint.x) := by
  have both := congrArg (List.map Prod.fst) (placedPoints_differences points)
  rw [List.map_map] at both
  exact both.trans (List.map_fst_zip (by simp [length_differences]))

theorem placedPoints_y (points : List StoredPoint) :
    (placedPoints points).map (fun placed => placed.2.2) =
      differences 0 (points.map StoredPoint.y) := by
  have both := congrArg (List.map Prod.snd) (placedPoints_differences points)
  rw [List.map_map] at both
  exact both.trans (List.map_snd_zip (by simp [length_differences]))

theorem assemble_stored {flags : List PointFlags} {points : List StoredPoint}
    (described : List.Forall₂ (fun flags point =>
      FlagSet.contains flags PointFlags.onCurve = StoredPoint.isOnCurve point) flags points) :
    assemble flags ((points.map StoredPoint.x).map Int16.toInt32)
      ((points.map StoredPoint.y).map Int16.toInt32) = points.map StoredPoint.toCurvePoint := by
  induction described with
  | nil => rfl
  | @cons flag point flags points first _ induction =>
      exact congrArg₂ List.cons (congrArg (CurvePoint.mk point.x.toInt32 point.y.toInt32) first)
        induction

/-- Points that are near each other are read from their own bytes if no run of their flags is too
long. -/
theorem pointsDecoder_reads_encodePoints {points : List StoredPoint}
    (nearX : (0 :: points.map StoredPoint.x).IsChain IsNear)
    (nearY : (0 :: points.map StoredPoint.y).IsChain IsNear)
    (short : HasShortRuns (storedFlags points)) :
    (pointsDecoder points.length).Reads (encodePoints points)
      (points.map StoredPoint.toCurvePoint) := by
  have bare : ∀ flags ∈ storedFlags points, flags.contains PointFlags.repeated = false := by
    intro flags member
    rcases List.mem_map.mp member with ⟨placed, -, rfl⟩
    exact placed.not_repeated
  have count : (storedFlags points).length = points.length := by
    simp [storedFlags, placedPoints, length_differences]
  rcases flagsDecoder_reads_runs short bare with ⟨written, flagsRead, agree⟩
  have described : List.Forall₂ (fun flags placed => PlacedPoint.DescribedBy flags placed) written
      (placedPoints points) :=
    (List.forall₂_map_right_iff.mp agree).imp fun _ _ => PlacedPoint.describedBy_of_agree
  have x : List.Forall₂ DeltaForm.x.Describes written
      ((placedPoints points).map fun placed => placed.2.1) :=
    List.forall₂_map_right_iff.mpr (described.imp fun _ _ described => described.x)
  have y : List.Forall₂ DeltaForm.y.Describes written
      ((placedPoints points).map fun placed => placed.2.2) :=
    List.forall₂_map_right_iff.mpr (described.imp fun _ _ described => described.y)
  have onCurve : List.Forall₂ (fun flags point =>
      FlagSet.contains flags PointFlags.onCurve = StoredPoint.isOnCurve point) written
      ((placedPoints points).map Prod.fst) :=
    List.forall₂_map_right_iff.mpr (described.imp fun _ _ described => described.onCurve)
  rw [placedPoints_x] at x
  rw [placedPoints_y] at y
  rw [placedPoints_point] at onCurve
  have pointsRead : (pointsWith written).Reads
      ((differences 0 (points.map StoredPoint.x)).flatMap DeltaForm.encode ++
        ((differences 0 (points.map StoredPoint.y)).flatMap DeltaForm.encode ++ []))
      (points.map StoredPoint.toCurvePoint) := by
    rw [← assemble_stored onCurve, ← runningSums_differences nearX,
      ← runningSums_differences nearY]
    exact (DeltaForm.decoders_reads_encode x).bind
      ((DeltaForm.decoders_reads_encode y).bind (.pure _))
  rw [List.append_nil] at pointsRead
  rw [encodePoints_eq, pointsDecoder_eq, ← count]
  exact flagsRead.bind pointsRead

end Letterform.TrueType
