import Letterform.Proofs.TrueType.PackedPoints

/-!
The points of simple glyphs. A glyph has points exactly if its bytes begin with packed
points. Otherwise a run of flags is too long, or bytes are missing.
-/

namespace Letterform.TrueType

/-! Faults. -/

/-- Before the bytes end, a run of flags goes past the last point. -/
def FlagsOverrun (count : Nat) (bytes : Bytes) : Prop :=
  ∃ before flags flag more behind, bytes = before ++ flag :: more :: behind ∧
    FlagSection before flags ∧ HasBit flag 3 ∧ flags.length < count ∧
      count < flags.length + (more.toNat + 1)

theorem FlagsOverrun.not_nil {count : Nat} : ¬FlagsOverrun count [] := by
  rintro ⟨before, flags, flag, more, behind, whole, -⟩
  cases List.append_eq_nil_iff.mp whole.symm with
  | intro _ nothing => cases nothing

theorem FlagsOverrun.not_singleton {count : Nat} {flag : UInt8} (isRun : HasBit flag 3) :
    ¬FlagsOverrun count [flag] := by
  rintro ⟨before, flags, other, more, behind, whole, isSection, -⟩
  cases isSection with
  | empty => cases whole
  | single isSingle =>
      rw [List.cons_append, List.cons.injEq] at whole
      exact isSingle (whole.1 ▸ isRun)
  | run => cases whole

theorem flagsOverrun_single_iff {count : Nat} {flag : UInt8} {bytes : Bytes}
    (isSingle : ¬HasBit flag 3) :
    FlagsOverrun count (flag :: bytes) ↔ FlagsOverrun (count - 1) bytes := by
  constructor
  · rintro ⟨before, flags, other, more, behind, whole, isSection, isRun, short, long⟩
    cases isSection with
    | empty =>
        rw [List.nil_append, List.cons.injEq] at whole
        exact absurd (whole.1 ▸ isRun) isSingle
    | @single first bytes flags _ isSection =>
        rw [List.cons_append, List.cons.injEq] at whole
        rw [List.length_cons] at short long
        exact ⟨bytes, flags, other, more, behind, whole.2, isSection, isRun, by omega, by omega⟩
    | run isRun =>
        rw [List.cons_append, List.cons.injEq] at whole
        exact absurd (whole.1 ▸ isRun) isSingle
  · rintro ⟨before, flags, other, more, behind, rfl, isSection, isRun, short, long⟩
    refine ⟨flag :: before, flag :: flags, other, more, behind, rfl, .single isSingle isSection,
      isRun, ?_, ?_⟩
    · rw [List.length_cons]
      omega
    · rw [List.length_cons]
      omega

theorem flagsOverrun_run_iff {count : Nat} {flag more : UInt8} {bytes : Bytes}
    (isRun : HasBit flag 3) :
    FlagsOverrun count (flag :: more :: bytes) ↔
      (0 < count ∧ count < more.toNat + 1) ∨ FlagsOverrun (count - (more.toNat + 1)) bytes := by
  constructor
  · rintro ⟨before, flags, other, last, behind, whole, isSection, isOtherRun, short, long⟩
    cases isSection with
    | empty =>
        rw [List.nil_append, List.cons.injEq, List.cons.injEq] at whole
        rcases whole with ⟨-, rfl, -⟩
        rw [List.length_nil] at short long
        exact .inl ⟨short, by omega⟩
    | single isSingle =>
        rw [List.cons_append, List.cons.injEq] at whole
        exact absurd (whole.1 ▸ isRun) isSingle
    | @run first again bytes flags _ isSection =>
        rw [List.cons_append, List.cons_append, List.cons.injEq, List.cons.injEq] at whole
        rcases whole with ⟨-, rfl, whole⟩
        rw [List.length_append, List.length_replicate] at short long
        exact .inr ⟨bytes, flags, other, last, behind, whole, isSection, isOtherRun, by omega,
          by omega⟩
  · rintro (⟨positive, long⟩ |
      ⟨before, flags, other, last, behind, rfl, isSection, isOtherRun, short, long⟩)
    · exact ⟨[], [], flag, more, bytes, rfl, .empty, isRun, positive, by simpa using long⟩
    · refine ⟨flag :: more :: before, _, other, last, behind, rfl, .run isRun isSection,
        isOtherRun, ?_, ?_⟩
      · rw [List.length_append, List.length_replicate]
        omega
      · rw [List.length_append, List.length_replicate]
        omega

theorem flagsDecoder_overrun_iff {count : Nat} {bytes : Bytes} {position : Nat} :
    ((flagsDecoder count).run { rest := bytes, position }).1 = .error (.malformed .repeatCount) ↔
      FlagsOverrun count bytes := by
  induction count using flagsDecoder.induct generalizing bytes position with
  | case1 =>
      rw [flagsDecoder, dif_pos rfl]
      constructor
      · intro impossible
        cases impossible
      · rintro ⟨before, flags, flag, more, behind, whole, isSection, isRun, short, long⟩
        cases short
  | case2 count positive inductionRun inductionSingle =>
      rw [flagsDecoder_of_pos positive, Decoder.run_bind]
      cases bytes with
      | nil =>
          refine iff_of_false ?_ FlagsOverrun.not_nil
          intro missing
          cases missing
      | cons flag bytes =>
          have readFlag := PointFlags.reads_iff.mpr ⟨flag, rfl, rfl⟩ bytes position
          rw [List.singleton_append] at readFlag
          rw [readFlag]
          simp only
          by_cases isRun : HasBit flag 3
          · rw [if_pos ((PointFlags.contains_repeated flag).mpr isRun), Decoder.run_bind]
            cases bytes with
            | nil =>
                refine iff_of_false ?_ (FlagsOverrun.not_singleton isRun)
                intro missing
                cases missing
            | cons more bytes =>
                have readMore := (reads_byte_iff.mpr (Eq.refl [more])) bytes (position + 1)
                rw [List.singleton_append] at readMore
                rw [List.length_singleton, readMore, flagsOverrun_run_iff isRun]
                simp only
                by_cases long : count < more.toNat + 1
                · rw [if_pos long]
                  exact iff_of_true rfl (.inl ⟨Nat.pos_of_ne_zero positive, long⟩)
                · rw [if_neg long, Decoder.bind_error_iff fun _ _ => Decoder.pure_ne_error _ _ _,
                    inductionRun more long]
                  exact (or_iff_right fun short => long short.2).symm
          · rw [if_neg (mt (PointFlags.contains_repeated flag).mp isRun),
              Decoder.bind_error_iff fun _ _ => Decoder.pure_ne_error _ _ _, inductionSingle,
              flagsOverrun_single_iff isRun]

def IsPointsError (error : ReadError) : Prop :=
  error = .malformed .repeatCount ∨ error.IsOutOfBounds

theorem read_failsWith (α : Type) [Packed α] :
    (Decoder.read α).FailsWith ReadError.IsOutOfBounds :=
  Decoder.IsRegular.read.fails

theorem flagsDecoder_failsWith (count : Nat) : (flagsDecoder count).FailsWith IsPointsError := by
  have read (α : Type) [Packed α] : (Decoder.read α).FailsWith IsPointsError :=
    fun cursor error next equal => .inr (read_failsWith α cursor error next equal)
  induction count using flagsDecoder.induct with
  | case1 =>
      rw [flagsDecoder, dif_pos rfl]
      exact .pure []
  | case2 count positive inductionRun inductionSingle =>
      rw [flagsDecoder_of_pos positive]
      refine .bind (read PointFlags) fun flags => ?_
      split
      · refine .bind (read UInt8) fun more => ?_
        split
        · exact .fail (.inl rfl)
        · next fits => exact .bind (inductionRun more fits) fun _ => .pure _
      · exact .bind inductionSingle fun _ => .pure _

theorem DeltaForm.decoders_failsWith (form : DeltaForm) (flags : List PointFlags) :
    (flags.mapM form.decoder).FailsWith ReadError.IsOutOfBounds := by
  induction flags with
  | nil =>
      rw [List.mapM_nil]
      exact .pure []
  | cons flag flags induction =>
      have one : (form.decoder flag).FailsWith ReadError.IsOutOfBounds := by
        simp only [decoder]
        split
        · exact .bind (read_failsWith UInt8) fun _ => .pure _
        · split
          · exact .pure 0
          · exact .bind (read_failsWith Int16) fun _ => .pure _
      rw [List.mapM_cons]
      exact .bind one fun _ => .bind induction fun _ => .pure _

theorem pointsWith_failsWith (flags : List PointFlags) :
    (pointsWith flags).FailsWith ReadError.IsOutOfBounds :=
  .bind (DeltaForm.x.decoders_failsWith flags) fun _ =>
    .bind (DeltaForm.y.decoders_failsWith flags) fun _ => .pure _

theorem pointsDecoder_failsWith (count : Nat) : (pointsDecoder count).FailsWith IsPointsError :=
  .bind (flagsDecoder_failsWith count) fun flags cursor error next equal =>
    .inr (pointsWith_failsWith flags cursor error next equal)

theorem pointsDecoder_overrun_iff {count : Nat} {bytes : Bytes} :
    (pointsDecoder count).decode bytes = .error (.malformed .repeatCount) ↔
      FlagsOverrun count bytes := by
  have never (flags : List PointFlags) (cursor : Cursor) :
      ((pointsWith flags).run cursor).1 ≠ .error (.malformed .repeatCount) := by
    intro equal
    rcases pointsWith_failsWith flags cursor _ _ (Prod.ext equal rfl) with ⟨offset, impossible⟩
    cases impossible
  rw [pointsDecoder_eq]
  exact (Decoder.bind_error_iff never).trans flagsDecoder_overrun_iff

/-! Glyphs. -/

theorem read_bind_ok {α β : Type} [Packed α] {next : α → Decoder ReadError β} {rest : Bytes}
    {position : Nat} {result : β} {last : Cursor}
    (equal : (Decoder.read α >>= next).run { rest, position } = (.ok result, last)) :
    ∃ taken value behind, rest = taken ++ behind ∧ taken.length = Packed.width α ∧
      (next value).run { rest := behind, position := position + taken.length } =
        (.ok result, last) := by
  rcases Decoder.IsRegular.read.exact.bind_ok equal with ⟨taken, value, behind, whole, reads, equal⟩
  exact ⟨taken, value, behind, whole, (Decoder.reads_read_iff.mp reads).1, equal⟩

theorem readList_ok {α : Type} [Packed α] {count position : Nat} {rest : Bytes} {values : List α}
    {next : Cursor}
    (equal : (Decoder.readList α count).run { rest, position } = (.ok values, next)) :
    ∃ taken, rest = taken ++ next.rest ∧ taken.length = values.length * Packed.width α ∧
      next = { rest := next.rest, position := position + taken.length } := by
  simp only [Decoder.readList] at equal
  split at equal
  · cases equal
  · rcases (Decoder.IsExact.takeBytes _).bind_ok equal with ⟨taken, _, behind, rfl, reads, equal⟩
    rcases Decoder.reads_takeBytes_iff.mp reads with ⟨length, rfl⟩
    cases equal
    exact ⟨taken, rfl, by rw [length, Packed.length_decodeList], rfl⟩

namespace SimpleGlyph

theorem decoder_layout {box : Box Int16} {count position : Nat} {rest : Bytes}
    {glyph : SimpleGlyph} {last : Cursor}
    (equal : (decoder box count).run { rest, position } = (.ok glyph, last)) :
    ∃ header, header.length = 2 + 2 * glyph.ends.length ∧
      rest = header ++ (glyph.instructions ++ glyph.packed) := by
  rcases Decoder.exists_run_of_bind equal with ⟨ends, middle, endsRead, equal⟩
  rcases readList_ok endsRead with ⟨endBytes, whole, endsLength, placed⟩
  rw [placed] at equal
  rcases read_bind_ok equal with ⟨lengthBytes, length, behind, split, wordLength, equal⟩
  rcases (Decoder.IsExact.takeBytes _).bind_ok equal with
    ⟨taken, instructions, packed, rfl, reads, equal⟩
  rcases Decoder.reads_takeBytes_iff.mp reads with ⟨-, rfl⟩
  cases equal
  refine ⟨endBytes ++ lengthBytes, ?_, ?_⟩
  · have endWidth : endBytes.length = ends.length * 2 := endsLength
    have width : lengthBytes.length = 2 := wordLength
    show (endBytes ++ lengthBytes).length = 2 + 2 * ends.length
    rw [List.length_append]
    omega
  · rw [whole, split, List.append_assoc]

theorem layout {glyph : SimpleGlyph} {bytes : Bytes}
    (read : Glyph.ofBytes bytes = .ok (.simple glyph)) :
    ∃ header, header.length = 12 + 2 * glyph.ends.length ∧
      bytes = header ++ (glyph.instructions ++ glyph.packed) := by
  have decoded : Glyph.decoder.decode bytes = .ok (.simple glyph) := by
    simp only [Glyph.ofBytes, bind, Except.bind] at read
    split at read
    · cases read
    · split at read
      · cases read
      · exact read
  have equal : Glyph.decoder.run { rest := bytes } =
      (.ok (.simple glyph), (Glyph.decoder.run { rest := bytes }).2) := Prod.ext decoded rfl
  simp only [Glyph.decoder, Decoder.readBox, bind_assoc, pure_bind] at equal
  rcases read_bind_ok equal with ⟨first, count, behind, rfl, firstLength, equal⟩
  rcases read_bind_ok equal with ⟨second, _, behind, rfl, secondLength, equal⟩
  rcases read_bind_ok equal with ⟨third, _, behind, rfl, thirdLength, equal⟩
  rcases read_bind_ok equal with ⟨fourth, _, behind, rfl, fourthLength, equal⟩
  rcases read_bind_ok equal with ⟨fifth, _, behind, rfl, fifthLength, equal⟩
  split at equal
  · rcases Decoder.exists_run_of_bind equal with ⟨simple, middle, simpleRead, equal⟩
    cases equal
    rcases decoder_layout simpleRead with ⟨header, headerLength, rfl⟩
    refine ⟨first ++ (second ++ (third ++ (fourth ++ (fifth ++ header)))), ?_, ?_⟩
    · have width : Packed.width Int16 = 2 := rfl
      simp only [List.length_append]
      omega
    · simp only [List.append_assoc]
  · rcases Decoder.exists_run_of_bind equal with ⟨rest, middle, restRead, equal⟩
    cases equal

theorem pointsInto_exact (glyph : SimpleGlyph) :
    glyph.pointsInto glyph.pointCount glyph.pointCount =
      (pointsDecoder glyph.pointCount).decode glyph.packed := by
  rw [pointsInto, if_neg (by simp)]
  rfl

/-- The points of a glyph are read exactly if the bytes behind its instructions start with packed
points, as many as the glyph has; whatever follows, they are the sums of the differences. Otherwise
the reading fails: for a run of flags past the last point, or else for missing bytes. -/
theorem pointsInto_grammar (glyph : SimpleGlyph) :
    (∀ bytes, Glyph.ofBytes bytes = .ok (.simple glyph) →
      ∃ header, header.length = 12 + 2 * glyph.ends.length ∧
        bytes = header ++ (glyph.instructions ++ glyph.packed)) ∧
    (∀ points, glyph.pointsInto glyph.pointCount glyph.pointCount = .ok points ↔
      ∃ bytes rest flags xs ys, glyph.packed = bytes ++ rest ∧ PackedPoints bytes flags xs ys ∧
        flags.length = glyph.pointCount ∧
          points = (List.range glyph.pointCount).map (packedPoint flags xs ys)) ∧
    (glyph.pointsInto glyph.pointCount glyph.pointCount = .error (.malformed .repeatCount) ↔
      FlagsOverrun glyph.pointCount glyph.packed) ∧
    (∀ error, glyph.pointsInto glyph.pointCount glyph.pointCount = .error error →
      error = .malformed .repeatCount ∨ error.IsOutOfBounds) := by
  rw [pointsInto_exact]
  refine ⟨fun bytes => layout, fun points => ?_, pointsDecoder_overrun_iff, fun error equal => ?_⟩
  · rw [(pointsDecoder_isExact glyph.pointCount).decode_eq_ok_iff]
    constructor
    · rintro ⟨bytes, rest, whole, reads⟩
      rcases pointsDecoder_reads_iff.mp reads with ⟨flags, xs, ys, packed, length, equal⟩
      exact ⟨bytes, rest, flags, xs, ys, whole, packed, length, equal⟩
    · rintro ⟨bytes, rest, flags, xs, ys, whole, packed, length, equal⟩
      exact ⟨bytes, rest, whole, pointsDecoder_reads_iff.mpr ⟨flags, xs, ys, packed, length, equal⟩⟩
  · exact pointsDecoder_failsWith glyph.pointCount _ _ _ (Prod.ext equal rfl)

/-- A run of two points and a single one, with a byte behind them. -/
theorem pointsInto_grammar_run :
    pointsInto ⟨⟨0, 0, 0, 0⟩, [2], [], [0x3B, 1, 0x02, 5, 7, 3, 255, 254, 77]⟩ 3 3 =
      .ok [⟨5, 0, true⟩, ⟨12, 0, true⟩, ⟨9, -2, false⟩] := by
  refine ((pointsInto_grammar _).2.1 _).mpr ⟨[0x3B, 1, 0x02, 5, 7, 3, 255, 254], [77],
    [0x3B, 0x3B, 0x02], [5, 7, -3], [0, 0, -2], rfl, ?_, rfl, rfl⟩
  have flagSection : FlagSection [0x3B, 1, 0x02] [0x3B, 0x3B, 0x02] :=
    .run rfl (.single (by decide) .empty)
  have xSection : DeltaSection 1 4 [0x3B, 0x3B, 0x02] [5, 7, 3] [5, 7, -3] :=
    .more (.positive 5 rfl rfl) (.more (.positive 7 rfl rfl)
      (.more (.negative 3 rfl (by decide)) .empty))
  have signed : Int.bmod (256 * (255 : UInt8).toNat + (254 : UInt8).toNat : Nat) 65536 = -2 := by
    decide
  have word : Delta 2 5 0x02 [255, 254] (-2) := by
    rw [← signed]
    exact .word 255 254 (by decide) (by decide)
  have ySection : DeltaSection 2 5 [0x3B, 0x3B, 0x02] [255, 254] [0, 0, -2] :=
    .more (.absent (by decide) rfl) (.more (.absent (by decide) rfl) (.more word .empty))
  exact .sections flagSection xSection ySection

end SimpleGlyph

end Letterform.TrueType
