import Letterform.Proofs.Bytes.Reading
import Letterform.TrueType.Glyph
import Mathlib.Data.List.Basic
import Mathlib.Tactic.IntervalCases

/-!
The packed points of simple glyphs. A grammar says which bytes stand for points: a
section of flags, one of x differences and one of y differences, where the flags say
how each difference is stored. The points are read from exactly these bytes, whatever
follows them.
-/

namespace Letterform.TrueType

/-! The grammar. -/

abbrev HasBit (flag : UInt8) (bit : Nat) : Prop := flag.toNat.testBit bit = true

/-- Flag bytes and the flags of the points that they stand for. Behind a flag byte with bit 3, a
byte says how many more points have the same flags. -/
inductive FlagSection : Bytes → List UInt8 → Prop
  | empty : FlagSection [] []
  | single {flag : UInt8} {bytes : Bytes} {flags : List UInt8} (isSingle : ¬HasBit flag 3)
      (others : FlagSection bytes flags) : FlagSection (flag :: bytes) (flag :: flags)
  | run {flag more : UInt8} {bytes : Bytes} {flags : List UInt8} (isRun : HasBit flag 3)
      (others : FlagSection bytes flags) :
      FlagSection (flag :: more :: bytes) (List.replicate (more.toNat + 1) flag ++ flags)

/-- The bytes of one difference: one if the flags have the first bit, whose sign is the second
one, and otherwise none or two. -/
inductive Delta (short same : Nat) (flag : UInt8) : Bytes → Int → Prop
  | positive (byte : UInt8) (isShort : HasBit flag short) (isPositive : HasBit flag same) :
      Delta short same flag [byte] byte.toNat
  | negative (byte : UInt8) (isShort : HasBit flag short) (isNegative : ¬HasBit flag same) :
      Delta short same flag [byte] (-byte.toNat)
  | absent (isLong : ¬HasBit flag short) (isSame : HasBit flag same) : Delta short same flag [] 0
  | word (high low : UInt8) (isLong : ¬HasBit flag short) (differs : ¬HasBit flag same) :
      Delta short same flag [high, low] (Int.bmod (256 * high.toNat + low.toNat : Nat) 65536)

inductive DeltaSection (short same : Nat) : List UInt8 → Bytes → List Int → Prop
  | empty : DeltaSection short same [] [] []
  | more {flag : UInt8} {flags : List UInt8} {bytes others : Bytes} {difference : Int}
      {differences : List Int} (first : Delta short same flag bytes difference)
      (rest : DeltaSection short same flags others differences) :
      DeltaSection short same (flag :: flags) (bytes ++ others) (difference :: differences)

/-- The flags, the x differences and the y differences, one section after the other. -/
inductive PackedPoints : Bytes → List UInt8 → (xs ys : List Int) → Prop
  | sections {flagBytes xBytes yBytes : Bytes} {flags : List UInt8} {xs ys : List Int}
      (flagSection : FlagSection flagBytes flags) (xSection : DeltaSection 1 4 flags xBytes xs)
      (ySection : DeltaSection 2 5 flags yBytes ys) :
      PackedPoints (flagBytes ++ (xBytes ++ yBytes)) flags xs ys

/-- The point at an index: sums of differences, which wrap around at 32 bits, and one bit of its
flags. -/
def packedPoint (flags : List UInt8) (xs ys : List Int) (index : Nat) : CurvePoint where
  x := .ofInt (xs.take (index + 1)).sum
  y := .ofInt (ys.take (index + 1)).sum
  isOnCurve := (flags.getD index 0).toNat.testBit 0

/-! Flags. -/

namespace PointFlags

def ofByte (flag : UInt8) : PointFlags := .ofBits flag.toBitVec

theorem contains_ofByte (flag : UInt8) {others : PointFlags} {bit : Nat} (bound : bit < 7)
    (single : others = .ofBits (.twoPow 8 bit)) :
    (ofByte flag).contains others = flag.toNat.testBit bit := by
  subst single
  have known : (0x7F : BitVec 8).getLsbD bit = true := by
    interval_cases bit <;> rfl
  have nonzero : 0#8 ≠ BitVec.twoPow 8 bit := by
    interval_cases bit <;> decide
  have whole : BitVec.twoPow 8 bit &&& 0x7F = .twoPow 8 bit := by
    rw [BitVec.and_comm, BitVec.and_twoPow, known, if_pos rfl]
  have isBit : flag.toNat.testBit bit = flag.toBitVec.getLsbD bit := rfl
  show decide (flag.toBitVec &&& 0x7F &&& (.twoPow 8 bit &&& 0x7F) = .twoPow 8 bit &&& 0x7F) = _
  rw [whole, BitVec.and_twoPow, BitVec.getLsbD_and, known, Bool.and_true, isBit]
  split
  · next isSet => rw [isSet, decide_eq_true rfl]
  · next isClear => rw [decide_eq_false nonzero, Bool.eq_false_of_not_eq_true isClear]

theorem contains_ofByte_iff (flag : UInt8) {others : PointFlags} {bit : Nat} (bound : bit < 7)
    (single : others = .ofBits (.twoPow 8 bit)) :
    (ofByte flag).contains others = true ↔ HasBit flag bit := by
  rw [contains_ofByte flag bound single]

theorem contains_repeated (flag : UInt8) :
    (ofByte flag).contains repeated = true ↔ HasBit flag 3 :=
  contains_ofByte_iff flag (by decide) rfl

theorem contains_onCurve (flag : UInt8) :
    (ofByte flag).contains onCurve = flag.toNat.testBit 0 :=
  contains_ofByte flag (by decide) rfl

theorem decode_singleton (flag : UInt8) : Packed.decode [flag] = ofByte flag := by
  have number : Bytes.number [flag] = flag.toNat := by simp [Bytes.number]
  show FlagSet.ofBits (UInt8.ofNat (Bytes.number [flag])).toBitVec = ofByte flag
  rw [number, UInt8.ofNat_toNat, ofByte]

theorem reads_iff {taken : Bytes} {flags : PointFlags} :
    (Decoder.read PointFlags).Reads taken flags ↔ ∃ flag, taken = [flag] ∧ ofByte flag = flags := by
  rw [Decoder.reads_read_iff]
  constructor
  · rintro ⟨length, decoded⟩
    rcases List.length_eq_one_iff.mp length with ⟨flag, rfl⟩
    exact ⟨flag, rfl, (decode_singleton flag).symm.trans decoded⟩
  · rintro ⟨flag, rfl, rfl⟩
    exact ⟨rfl, decode_singleton flag⟩

end PointFlags

theorem reads_byte_iff {taken : Bytes} {byte : UInt8} :
    (Decoder.read UInt8).Reads taken byte ↔ taken = [byte] := by
  rw [Decoder.reads_read_iff]
  constructor
  · rintro ⟨length, decoded⟩
    rcases List.length_eq_one_iff.mp length with ⟨first, rfl⟩
    have number : Bytes.number [first] = first.toNat := by simp [Bytes.number]
    have same : UInt8.ofNat (Bytes.number [first]) = byte := decoded
    rw [number, UInt8.ofNat_toNat] at same
    rw [same]
  · rintro rfl
    have number : Bytes.number [byte] = byte.toNat := by simp [Bytes.number]
    refine ⟨rfl, ?_⟩
    show UInt8.ofNat (Bytes.number [byte]) = byte
    rw [number, UInt8.ofNat_toNat]

theorem flagsDecoder_of_pos {count : Nat} (positive : ¬count = 0) :
    flagsDecoder count = (do
      let flags : PointFlags ← Decoder.read PointFlags
      if flags.contains PointFlags.repeated then
        let more : UInt8 ← Decoder.read UInt8
        if count < more.toNat + 1 then Decoder.fail (.malformed .repeatCount)
        else return List.replicate (more.toNat + 1) flags ++
          (← flagsDecoder (count - (more.toNat + 1)))
      else return flags :: (← flagsDecoder (count - 1))) := by
  rw [flagsDecoder, dif_neg positive]

theorem flagsDecoder_reads {bytes : Bytes} {flags : List UInt8}
    (isSection : FlagSection bytes flags) :
    (flagsDecoder flags.length).Reads bytes (flags.map PointFlags.ofByte) := by
  induction isSection with
  | empty =>
      rw [List.length_nil, flagsDecoder, dif_pos rfl]
      exact .pure []
  | @single flag bytes flags isSingle _ induction =>
      rw [flagsDecoder_of_pos (by simp)]
      refine Decoder.Reads.bind (PointFlags.reads_iff.mpr ⟨flag, rfl, rfl⟩) ?_
      rw [if_neg (mt (PointFlags.contains_repeated flag).mp isSingle)]
      rw [← List.append_nil bytes]
      exact induction.bind (.pure _)
  | @run flag more bytes flags isRun _ induction =>
      have length : (List.replicate (more.toNat + 1) flag ++ flags).length =
          more.toNat + 1 + flags.length := by simp
      rw [length, flagsDecoder_of_pos (by omega)]
      refine Decoder.Reads.bind (PointFlags.reads_iff.mpr ⟨flag, rfl, rfl⟩) ?_
      rw [if_pos ((PointFlags.contains_repeated flag).mpr isRun)]
      refine Decoder.Reads.bind (reads_byte_iff.mpr rfl) ?_
      rw [if_neg (by omega), Nat.add_sub_cancel_left, List.map_append, List.map_replicate]
      rw [← List.append_nil bytes]
      exact induction.bind (.pure _)

theorem flagSection_of_run {count position : Nat} {rest : Bytes} {result : List PointFlags}
    {next : Cursor} (equal : (flagsDecoder count).run { rest, position } = (.ok result, next)) :
    ∃ bytes flags, rest = bytes ++ next.rest ∧ FlagSection bytes flags ∧ flags.length = count ∧
      flags.map PointFlags.ofByte = result := by
  have exactByte : (Decoder.read UInt8).IsExact := Decoder.IsRegular.read.exact
  have exactFlags : (Decoder.read PointFlags).IsExact := Decoder.IsRegular.read.exact
  induction count using flagsDecoder.induct generalizing rest position result next with
  | case1 =>
      rw [flagsDecoder, dif_pos rfl] at equal
      cases equal
      exact ⟨[], [], rfl, .empty, rfl, rfl⟩
  | case2 count positive inductionRun inductionSingle =>
      rw [flagsDecoder_of_pos positive] at equal
      rcases exactFlags.bind_ok equal with ⟨_, _, behind, rfl, reads, equal⟩
      rcases PointFlags.reads_iff.mp reads with ⟨flag, rfl, rfl⟩
      by_cases isRun : HasBit flag 3
      · rw [if_pos ((PointFlags.contains_repeated flag).mpr isRun)] at equal
        rcases exactByte.bind_ok equal with ⟨_, more, behind, rfl, reads, equal⟩
        rcases reads_byte_iff.mp reads with rfl
        by_cases long : count < more.toNat + 1
        · rw [if_pos long] at equal
          cases equal
        · rw [if_neg long] at equal
          rcases Decoder.exists_run_of_bind equal with ⟨others, last, found, equal⟩
          cases equal
          rcases inductionRun more long found with ⟨bytes, flags, rfl, isSection, length, rfl⟩
          refine ⟨flag :: more :: bytes, _, rfl, .run isRun isSection, ?_, ?_⟩
          · rw [List.length_append, List.length_replicate]
            omega
          · rw [List.map_append, List.map_replicate]
      · rw [if_neg (mt (PointFlags.contains_repeated flag).mp isRun)] at equal
        rcases Decoder.exists_run_of_bind equal with ⟨others, last, found, equal⟩
        cases equal
        rcases inductionSingle found with ⟨bytes, flags, rfl, isSection, length, rfl⟩
        refine ⟨flag :: bytes, flag :: flags, rfl, .single isRun isSection, ?_, rfl⟩
        rw [List.length_cons]
        omega

theorem flagsDecoder_isExact (count : Nat) : (flagsDecoder count).IsExact := by
  intro rest position next result equal
  rcases flagSection_of_run equal with ⟨bytes, flags, whole, isSection, rfl, rfl⟩
  exact ⟨bytes, whole, flagsDecoder_reads isSection⟩

theorem flagsDecoder_reads_iff {count : Nat} {bytes : Bytes} {result : List PointFlags} :
    (flagsDecoder count).Reads bytes result ↔
      ∃ flags, FlagSection bytes flags ∧ flags.length = count ∧
        flags.map PointFlags.ofByte = result := by
  constructor
  · intro reads
    rcases flagSection_of_run reads.run with ⟨taken, flags, whole, isSection, length, equal⟩
    rw [List.append_nil] at whole
    exact ⟨flags, whole ▸ isSection, length, equal⟩
  · rintro ⟨flags, isSection, rfl, rfl⟩
    exact flagsDecoder_reads isSection

/-! Differences. -/

structure DeltaForm.HasBits (form : DeltaForm) (short same : Nat) : Prop where
  short (flag : UInt8) : (PointFlags.ofByte flag).contains form.short = true ↔ HasBit flag short
  same (flag : UInt8) :
    (PointFlags.ofByte flag).contains form.positiveOrSame = true ↔ HasBit flag same

theorem DeltaForm.x_hasBits : DeltaForm.x.HasBits 1 4 where
  short flag := PointFlags.contains_ofByte_iff flag (by decide) rfl
  same flag := PointFlags.contains_ofByte_iff flag (by decide) rfl

theorem DeltaForm.y_hasBits : DeltaForm.y.HasBits 2 5 where
  short flag := PointFlags.contains_ofByte_iff flag (by decide) rfl
  same flag := PointFlags.contains_ofByte_iff flag (by decide) rfl

namespace DeltaForm

variable {form : DeltaForm} {short same : Nat}

theorem decoder_isExact (form : DeltaForm) (flags : PointFlags) : (form.decoder flags).IsExact := by
  simp only [decoder]
  split
  · exact .bind Decoder.IsRegular.read.exact fun _ => .pure _
  · split
    · exact .pure 0
    · exact .bind Decoder.IsRegular.read.exact fun _ => .pure _

theorem toInt32_decode_word (high low : UInt8) :
    (Packed.decode [high, low] : Int16).toInt32 =
      .ofInt (Int.bmod (256 * high.toNat + low.toNat : Nat) 65536) := by
  have number : Bytes.number [high, low] = 256 * high.toNat + low.toNat := by simp [Bytes.number]
  show (UInt16.ofNat (Bytes.number [high, low])).toInt16.toInt32 = _
  rw [number]
  generalize 256 * high.toNat + low.toNat = number
  have word : (UInt16.ofNat number).toInt16.toInt = Int.bmod number 65536 := by simp
  rw [← word, ← Int16.toInt_toInt32, Int32.ofInt_toInt]

theorem decoder_reads (bits : form.HasBits short same) {flag : UInt8} {bytes : Bytes}
    {difference : Int} (delta : Delta short same flag bytes difference) :
    (form.decoder (PointFlags.ofByte flag)).Reads bytes (.ofInt difference) := by
  cases delta with
  | positive byte isShort isPositive =>
      rw [decoder, if_pos ((bits.short flag).mpr isShort)]
      refine Decoder.Reads.bind (reads_byte_iff.mpr rfl) ?_
      simp only [if_pos ((bits.same flag).mpr isPositive)]
      exact .pure _
  | negative byte isShort isNegative =>
      rw [decoder, if_pos ((bits.short flag).mpr isShort), Int32.ofInt_neg]
      refine Decoder.Reads.bind (reads_byte_iff.mpr rfl) ?_
      simp only [if_neg (mt (bits.same flag).mp isNegative)]
      exact .pure _
  | absent isLong isSame =>
      rw [decoder, if_neg (mt (bits.short flag).mp isLong), if_pos ((bits.same flag).mpr isSame)]
      exact .pure 0
  | word high low isLong differs =>
      rw [decoder, if_neg (mt (bits.short flag).mp isLong), if_neg (mt (bits.same flag).mp differs),
        ← toInt32_decode_word]
      have word : (Decoder.read Int16).Reads [high, low] (Packed.decode [high, low]) :=
        Decoder.reads_read_iff.mpr ⟨rfl, rfl⟩
      exact word.bind (.pure _)

theorem delta_of_reads (bits : form.HasBits short same) {flag : UInt8} {bytes : Bytes}
    {value : Int32} (reads : (form.decoder (PointFlags.ofByte flag)).Reads bytes value) :
    ∃ difference, Delta short same flag bytes difference ∧ .ofInt difference = value := by
  rw [decoder] at reads
  by_cases isShort : HasBit flag short
  · rw [if_pos ((bits.short flag).mpr isShort),
      Decoder.reads_bind_iff Decoder.IsRegular.read.exact fun _ => .pure _] at reads
    rcases reads with ⟨_, byte, _, rfl, byteReads, decoded⟩
    rcases reads_byte_iff.mp byteReads with rfl
    rcases Decoder.reads_pure_iff.mp decoded with ⟨rfl, rfl⟩
    by_cases isPositive : HasBit flag same
    · rw [if_pos ((bits.same flag).mpr isPositive)]
      exact ⟨_, .positive byte isShort isPositive, rfl⟩
    · rw [if_neg (mt (bits.same flag).mp isPositive)]
      exact ⟨_, .negative byte isShort isPositive, Int32.ofInt_neg _⟩
  · rw [if_neg (mt (bits.short flag).mp isShort)] at reads
    by_cases isSame : HasBit flag same
    · rw [if_pos ((bits.same flag).mpr isSame)] at reads
      rcases Decoder.reads_pure_iff.mp reads with ⟨rfl, rfl⟩
      exact ⟨0, .absent isShort isSame, rfl⟩
    · rw [if_neg (mt (bits.same flag).mp isSame),
        Decoder.reads_bind_iff Decoder.IsRegular.read.exact fun _ => .pure _] at reads
      rcases reads with ⟨_, word, _, rfl, wordReads, decoded⟩
      rcases Decoder.reads_read_iff.mp wordReads with ⟨length, rfl⟩
      rcases List.length_eq_two.mp length with ⟨high, low, rfl⟩
      rcases Decoder.reads_pure_iff.mp decoded with ⟨rfl, rfl⟩
      exact ⟨_, .word high low isShort isSame, (toInt32_decode_word high low).symm⟩

theorem decoders_isExact (form : DeltaForm) (flags : List PointFlags) :
    (flags.mapM form.decoder).IsExact := by
  induction flags with
  | nil =>
      rw [List.mapM_nil]
      exact .pure []
  | cons flag flags induction =>
      rw [List.mapM_cons]
      exact .bind (form.decoder_isExact flag) fun _ => .bind induction fun _ => .pure _

theorem decoders_reads_iff (bits : form.HasBits short same) {flags : List UInt8} {bytes : Bytes}
    {values : List Int32} :
    ((flags.map PointFlags.ofByte).mapM form.decoder).Reads bytes values ↔
      ∃ differences, DeltaSection short same flags bytes differences ∧
        differences.map Int32.ofInt = values := by
  constructor
  · intro reads
    induction flags generalizing bytes values with
    | nil =>
        rw [List.map_nil, List.mapM_nil] at reads
        rcases Decoder.reads_pure_iff.mp reads with ⟨rfl, rfl⟩
        exact ⟨[], .empty, rfl⟩
    | cons flag flags induction =>
        rw [List.map_cons, List.mapM_cons, Decoder.reads_bind_iff (form.decoder_isExact _)
          fun _ => .bind (form.decoders_isExact _) fun _ => .pure _] at reads
        rcases reads with ⟨first, _, behind, rfl, firstReads, reads⟩
        rw [Decoder.reads_bind_iff (form.decoders_isExact _) fun _ => .pure _] at reads
        rcases reads with ⟨others, _, _, rfl, othersRead, decoded⟩
        rcases Decoder.reads_pure_iff.mp decoded with ⟨rfl, rfl⟩
        rcases delta_of_reads bits firstReads with ⟨difference, delta, rfl⟩
        rcases induction othersRead with ⟨differences, deltas, rfl⟩
        rw [List.append_nil]
        exact ⟨difference :: differences, .more delta deltas, rfl⟩
  · rintro ⟨differences, deltas, rfl⟩
    induction deltas with
    | empty =>
        rw [List.map_nil, List.mapM_nil]
        exact .pure []
    | @more flag flags bytes others difference differences delta _ induction =>
        rw [List.map_cons, List.mapM_cons, ← List.append_nil others]
        exact (decoder_reads bits delta).bind (induction.bind (.pure _))

end DeltaForm

theorem DeltaSection.length {short same : Nat} {flags : List UInt8} {bytes : Bytes}
    {differences : List Int} (deltas : DeltaSection short same flags bytes differences) :
    differences.length = flags.length := by
  induction deltas with
  | empty => rfl
  | more _ _ induction => rw [List.length_cons, List.length_cons, induction]

/-! Points. -/

theorem runningSums_ofInt (start : Int) (differences : List Int) :
    runningSums (.ofInt start) (differences.map Int32.ofInt) =
      (List.range differences.length).map fun index =>
        .ofInt (start + (differences.take (index + 1)).sum) := by
  induction differences generalizing start with
  | nil => rfl
  | cons difference differences induction =>
      rw [List.map_cons, runningSums, ← Int32.ofInt_add, induction, List.length_cons,
        List.range_succ_eq_map, List.map_cons, List.map_map]
      congr 1
      · simp
      · simp [Function.comp_def, Int.add_assoc]

theorem assemble_packed (flags : List UInt8) (xs ys : List Int) (xLength : xs.length = flags.length)
    (yLength : ys.length = flags.length) :
    assemble (flags.map PointFlags.ofByte) (runningSums 0 (xs.map Int32.ofInt))
        (runningSums 0 (ys.map Int32.ofInt)) =
      (List.range flags.length).map (packedPoint flags xs ys) := by
  have xSums := runningSums_ofInt 0 xs
  have ySums := runningSums_ofInt 0 ys
  rw [show (Int32.ofInt 0) = 0 from rfl] at xSums ySums
  rw [xSums, ySums, xLength, yLength, assemble]
  apply List.ext_getElem
  · simp
  · intro index bound other
    have within : index < flags.length := by simpa using other
    simp only [List.getElem_map, List.getElem_zip, List.getElem_range, packedPoint,
      PointFlags.contains_onCurve, Int.zero_add]
    rw [List.getD_eq_getElem?_getD, List.getElem?_eq_getElem within, Option.getD_some]

def pointsWith (flags : List PointFlags) : Decoder ReadError (List CurvePoint) := do
  let xs ← flags.mapM DeltaForm.x.decoder
  let ys ← flags.mapM DeltaForm.y.decoder
  return assemble flags (runningSums 0 xs) (runningSums 0 ys)

theorem pointsDecoder_eq (count : Nat) : pointsDecoder count = flagsDecoder count >>= pointsWith :=
  rfl

theorem pointsWith_isExact (flags : List PointFlags) : (pointsWith flags).IsExact :=
  .bind (DeltaForm.x.decoders_isExact flags) fun _ =>
    .bind (DeltaForm.y.decoders_isExact flags) fun _ => .pure _

theorem pointsDecoder_isExact (count : Nat) : (pointsDecoder count).IsExact :=
  .bind (flagsDecoder_isExact count) pointsWith_isExact

theorem pointsWith_reads_iff {flags : List UInt8} {bytes : Bytes} {points : List CurvePoint} :
    (pointsWith (flags.map PointFlags.ofByte)).Reads bytes points ↔
      ∃ xBytes yBytes xs ys, bytes = xBytes ++ yBytes ∧ DeltaSection 1 4 flags xBytes xs ∧
        DeltaSection 2 5 flags yBytes ys ∧
          points = (List.range flags.length).map (packedPoint flags xs ys) := by
  constructor
  · intro reads
    rw [pointsWith, Decoder.reads_bind_iff (DeltaForm.x.decoders_isExact _) fun _ =>
      .bind (DeltaForm.y.decoders_isExact _) fun _ => .pure _] at reads
    rcases reads with ⟨xBytes, _, behind, rfl, xsRead, reads⟩
    rw [Decoder.reads_bind_iff (DeltaForm.y.decoders_isExact _) fun _ => .pure _] at reads
    rcases reads with ⟨yBytes, _, _, rfl, ysRead, assembled⟩
    rcases (DeltaForm.decoders_reads_iff DeltaForm.x_hasBits).mp xsRead with ⟨xs, xSection, rfl⟩
    rcases (DeltaForm.decoders_reads_iff DeltaForm.y_hasBits).mp ysRead with ⟨ys, ySection, rfl⟩
    rcases Decoder.reads_pure_iff.mp assembled with ⟨rfl, rfl⟩
    rw [List.append_nil, assemble_packed flags xs ys xSection.length ySection.length]
    exact ⟨xBytes, yBytes, xs, ys, rfl, xSection, ySection, rfl⟩
  · rintro ⟨xBytes, yBytes, xs, ys, rfl, xSection, ySection, rfl⟩
    have xsRead := (DeltaForm.decoders_reads_iff DeltaForm.x_hasBits).mpr ⟨xs, xSection, rfl⟩
    have ysRead := (DeltaForm.decoders_reads_iff DeltaForm.y_hasBits).mpr ⟨ys, ySection, rfl⟩
    rw [← assemble_packed flags xs ys xSection.length ySection.length, ← List.append_nil yBytes]
    exact xsRead.bind (ysRead.bind (.pure _))

theorem pointsDecoder_reads_iff {count : Nat} {bytes : Bytes} {points : List CurvePoint} :
    (pointsDecoder count).Reads bytes points ↔
      ∃ flags xs ys, PackedPoints bytes flags xs ys ∧ flags.length = count ∧
        points = (List.range count).map (packedPoint flags xs ys) := by
  rw [pointsDecoder_eq, Decoder.reads_bind_iff (flagsDecoder_isExact count) pointsWith_isExact]
  constructor
  · rintro ⟨flagBytes, _, behind, rfl, flagsRead, reads⟩
    rcases flagsDecoder_reads_iff.mp flagsRead with ⟨flags, flagSection, rfl, rfl⟩
    rcases pointsWith_reads_iff.mp reads with ⟨xBytes, yBytes, xs, ys, rfl, xSection, ySection, rfl⟩
    exact ⟨flags, xs, ys, .sections flagSection xSection ySection, rfl, rfl⟩
  · rintro ⟨flags, xs, ys, packed, rfl, rfl⟩
    cases packed with
    | sections flagSection xSection ySection =>
        exact ⟨_, _, _, rfl, flagsDecoder_reads flagSection,
          pointsWith_reads_iff.mpr ⟨_, _, xs, ys, rfl, xSection, ySection, rfl⟩⟩

end Letterform.TrueType
