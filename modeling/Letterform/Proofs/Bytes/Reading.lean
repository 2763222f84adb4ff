import Letterform.Bytes.Decoder

/-!
What the result of a decoder depends on. An exact decoder depends on the bytes that
it takes and not on those behind them. A decoder that is blind to positions reads
the same at every place of a file; only the offsets in its faults differ.
-/

namespace Letterform

namespace Cursor

def Agrees (first second : Cursor) : Prop :=
  first.rest = second.rest ∧ first.overrun = second.overrun

theorem Agrees.take? {first second : Cursor} (agrees : first.Agrees second) (count : Nat) :
    (first.take? count = none ∧ second.take? count = none) ∨
      ∃ taken next other, first.take? count = some (taken, next) ∧
        second.take? count = some (taken, other) ∧ next.Agrees other := by
  rcases agrees with ⟨sameRest, sameOverrun⟩
  simp only [Cursor.take?, sameRest, sameOverrun]
  cases second.overrun with
  | true => exact .inl ⟨rfl, rfl⟩
  | false =>
      cases Bytes.splitAt? count second.rest with
      | none => exact .inl ⟨rfl, rfl⟩
      | some parts => exact .inr ⟨_, _, _, rfl, rfl, rfl, rfl⟩

end Cursor

def ReadError.kind : ReadError → ReadError
  | .outOfBounds _ => .outOfBounds 0
  | error => error

theorem exists_ok_of_bind {ε β γ : Type} {first : Except ε β} {next : β → Except ε γ} {result : γ}
    (equal : first >>= next = .ok result) : ∃ value, first = .ok value ∧ next value = .ok result := by
  cases first with
  | error fault => cases equal
  | ok value => exact ⟨value, rfl, equal⟩

def ReadError.IsOutOfBounds (error : ReadError) : Prop := ∃ offset, error = .outOfBounds offset

theorem Packed.encode_byte (value : UInt8) : encode value = [value] := by
  simp [encode, Bytes.ofNumber]

theorem Packed.encodeList_bytes (bytes : Bytes) : encodeList bytes = bytes := by
  induction bytes with
  | nil => rfl
  | cons byte bytes induction =>
      rw [encodeList] at induction ⊢
      rw [List.flatMap_cons, encode_byte, induction]
      rfl

theorem Bytes.readAt_append {α : Type} [Packed α] (front : Bytes) (value : α) (behind : Bytes) :
    (front ++ (Packed.encode value ++ behind)).readAt α front.length = .ok value := by
  have split := splitAt?_append (Packed.encode value) behind
  rw [Packed.length_encode] at split
  rw [readAt, List.drop_left, split]
  exact congrArg Except.ok (Packed.decode_encode value)

theorem Bytes.readAt_encode {α : Type} [Packed α] (value : α) (rest : Bytes) :
    (Packed.encode value ++ rest).readAt α 0 = .ok value :=
  readAt_append [] value rest

theorem Bytes.readAt_encodeList {α : Type} [Packed α] (front behind : Bytes) {values : List α}
    {index : Nat} {value : α} (found : values[index]? = some value) :
    (front ++ (Packed.encodeList values ++ behind)).readAt α
      (front.length + index * Packed.width α) = .ok value := by
  rcases List.getElem?_eq_some_iff.mp found with ⟨within, rfl⟩
  have encoded : Packed.encodeList values = Packed.encodeList (values.take index) ++
      (Packed.encode values[index] ++ Packed.encodeList (values.drop (index + 1))) := calc
    Packed.encodeList values =
        Packed.encodeList (values.take index ++ values[index] :: values.drop (index + 1)) := by
      rw [List.getElem_cons_drop, List.take_append_drop]
    _ = _ := by
      rw [Packed.encodeList, List.flatMap_append, List.flatMap_cons]
      rfl
  have whole : front ++ (Packed.encodeList values ++ behind) =
      (front ++ Packed.encodeList (values.take index)) ++ (Packed.encode values[index] ++
        (Packed.encodeList (values.drop (index + 1)) ++ behind)) := by
    rw [encoded]
    simp only [List.append_assoc]
  have place : front.length + index * Packed.width α =
      (front ++ Packed.encodeList (values.take index)).length := by
    rw [List.length_append, Packed.length_encodeList, List.length_take_of_le (Nat.le_of_lt within)]
  rw [whole, place]
  exact readAt_append _ _ _

namespace Decoder

variable {ε δ α β : Type}

/-! Exact decoders. -/

/-- Reads the value from these bytes, whatever follows them. -/
def Reads (decoder : Decoder ε α) (taken : Bytes) (value : α) : Prop :=
  ∀ rest position, decoder.run { rest := taken ++ rest, position } =
    (.ok value, { rest, position := position + taken.length })

def IsExact (decoder : Decoder ε α) : Prop :=
  ∀ rest position next value, decoder.run { rest, position } = (.ok value, next) →
    ∃ taken, rest = taken ++ next.rest ∧ decoder.Reads taken value

theorem Reads.pure (value : α) : Reads (pure value : Decoder ε α) [] value := by
  intro rest position
  rfl

theorem Reads.bind {first : Decoder ε α} {next : α → Decoder ε β} {taken others : Bytes}
    {value : α} {result : β} (firstReads : first.Reads taken value)
    (nextReads : (next value).Reads others result) :
    (first >>= next).Reads (taken ++ others) result := by
  intro rest position
  rw [run_bind, List.append_assoc, firstReads]
  simp only
  rw [nextReads, List.length_append, Nat.add_assoc]

theorem Reads.map {decoder : Decoder ε α} {taken : Bytes} {value : α}
    (reads : decoder.Reads taken value) (transform : α → β) :
    (transform <$> decoder).Reads taken (transform value) := by
  have whole : (transform <$> decoder).Reads (taken ++ []) (transform value) :=
    reads.bind (.pure (transform value))
  rwa [List.append_nil] at whole

theorem Reads.run_bind {first : Decoder ε α} {taken : Bytes} {value : α}
    (reads : first.Reads taken value) (next : α → Decoder ε β) (rest : Bytes) (position : Nat) :
    (first >>= next).run { rest := taken ++ rest, position } =
      (next value).run { rest, position := position + taken.length } := by
  rw [Decoder.run_bind, reads]

theorem Reads.mapFault {decoder : Decoder ε α} {taken : Bytes} {value : α}
    (reads : decoder.Reads taken value) (wrap : ε → δ) :
    (decoder.mapFault wrap).Reads taken value := by
  intro rest position
  simp only [Decoder.mapFault, reads rest position]

theorem Reads.takeBytes (taken : Bytes) : (Decoder.takeBytes taken.length).Reads taken taken := by
  intro rest position
  simp [Decoder.takeBytes, Cursor.take?, Bytes.splitAt?_append]

theorem Reads.skip {count : Nat} {taken : Bytes} (length : taken.length = count) :
    (Decoder.skip count : Decoder ε Unit).Reads taken () := by
  intro rest position
  subst length
  simp [Decoder.skip, Cursor.skip, Cursor.take?, Bytes.splitAt?_append]

theorem Reads.read [Packed α] (value : α) :
    (Decoder.read α).Reads (Packed.encode value) value := by
  have taking := Reads.takeBytes (Packed.encode value)
  rw [Packed.length_encode] at taking
  have decoding : (Decoder.pure (Packed.decode (Packed.encode value)) : Decoder ReadError α).Reads
      [] value := by
    rw [Packed.decode_encode]
    exact Reads.pure value
  have whole : (Decoder.read α).Reads (Packed.encode value ++ []) value := taking.bind decoding
  rwa [List.append_nil] at whole

theorem Reads.byte (value : UInt8) : (Decoder.read UInt8).Reads [value] value := by
  have reads := Reads.read value
  rwa [Packed.encode_byte] at reads

theorem readList_run [Packed α] (values : List α) (rest : Bytes) {position : Nat}
    (bound : position + values.length * Packed.width α ≤ lastOffset) :
    (readList α values.length).run { rest := Packed.encodeList values ++ rest, position } =
      (.ok values, { rest, position := position + values.length * Packed.width α }) := by
  have length : (Packed.encodeList values).length = values.length * Packed.width α :=
    Packed.length_encodeList values
  have decoded : Packed.decodeList α values.length (Packed.encodeList values) = values := by
    have all := Packed.decodeList_encodeList values []
    rwa [List.append_nil] at all
  simp only [readList]
  rw [if_neg (Nat.not_lt.mpr bound), ← length, (Reads.takeBytes _).run_bind, decoded]
  rfl

/-- Reads the value from these bytes, whatever follows them, if their end has an offset. -/
def ReadsWithin (decoder : Decoder ε α) (taken : Bytes) (value : α) : Prop :=
  ∀ rest position, position + taken.length ≤ lastOffset →
    decoder.run { rest := taken ++ rest, position } =
      (.ok value, { rest, position := position + taken.length })

theorem Reads.within {decoder : Decoder ε α} {taken : Bytes} {value : α}
    (reads : decoder.Reads taken value) : decoder.ReadsWithin taken value :=
  fun rest position _ => reads rest position

theorem ReadsWithin.bind {first : Decoder ε α} {next : α → Decoder ε β} {taken others : Bytes}
    {value : α} {result : β} (firstReads : first.ReadsWithin taken value)
    (nextReads : (next value).ReadsWithin others result) :
    (first >>= next).ReadsWithin (taken ++ others) result := by
  intro rest position bound
  rw [List.length_append, ← Nat.add_assoc] at bound
  rw [run_bind, List.append_assoc, firstReads _ _ (Nat.le_trans (Nat.le_add_right _ _) bound)]
  simp only
  rw [nextReads _ _ bound, List.length_append, Nat.add_assoc]

theorem ReadsWithin.mapFault {decoder : Decoder ε α} {taken : Bytes} {value : α}
    (reads : decoder.ReadsWithin taken value) (wrap : ε → δ) :
    (decoder.mapFault wrap).ReadsWithin taken value := by
  intro rest position bound
  simp only [Decoder.mapFault, reads rest position bound]

theorem ReadsWithin.readList [Packed α] {count : Nat} {values : List α}
    (length : values.length = count) :
    (Decoder.readList α count).ReadsWithin (Packed.encodeList values) values := by
  intro rest position bound
  rw [Packed.length_encodeList] at bound ⊢
  subst length
  exact readList_run values rest bound

theorem ReadsWithin.decode {decoder : Decoder ε α} {taken : Bytes} {value : α}
    (reads : decoder.ReadsWithin taken value) (bound : taken.length ≤ lastOffset) (rest : Bytes) :
    decoder.decode (taken ++ rest) = .ok value :=
  congrArg Prod.fst (reads rest 0 (by rwa [Nat.zero_add]))

namespace IsExact

theorem pure (value : α) : IsExact (pure value : Decoder ε α) := by
  intro rest position next result equal
  cases equal
  exact ⟨[], rfl, Reads.pure value⟩

theorem fail (fault : ε) : IsExact (fail fault : Decoder ε α) := by
  intro rest position next value equal
  cases equal

theorem bind {first : Decoder ε α} {next : α → Decoder ε β} (exact : first.IsExact)
    (exactNext : ∀ value, (next value).IsExact) : (first >>= next).IsExact := by
  intro rest position last result equal
  rw [run_bind] at equal
  split at equal
  · next value middle found =>
      rcases exact _ _ _ _ found with ⟨taken, whole, reads⟩
      -- An exact read leaves a cursor that is not past the end.
      have placed : middle = { rest := middle.rest, position := position + taken.length } := by
        rw [whole, reads] at found
        exact (Prod.mk.inj found).2.symm
      rw [placed] at equal
      rcases exactNext value _ _ _ _ equal with ⟨others, split, readsOthers⟩
      exact ⟨taken ++ others, by rw [whole, split, List.append_assoc], reads.bind readsOthers⟩
  · cases equal

theorem mapFault {decoder : Decoder ε α} (exact : decoder.IsExact) (wrap : ε → δ) :
    (decoder.mapFault wrap).IsExact := by
  intro rest position next value equal
  simp only [Decoder.mapFault] at equal
  split at equal
  · next found =>
      cases equal
      rcases exact _ _ _ _ found with ⟨taken, whole, reads⟩
      exact ⟨taken, whole, reads.mapFault wrap⟩
  · cases equal

theorem takeBytes (count : Nat) : (Decoder.takeBytes count).IsExact := by
  intro rest position next value equal
  simp only [Decoder.takeBytes] at equal
  split at equal
  · next taken _ found =>
      cases equal
      simp only [Cursor.take?, Bool.false_eq_true, if_false, Option.map_eq_some_iff] at found
      rcases found with ⟨⟨first, others⟩, parts, split⟩
      cases split
      rcases Bytes.splitAt?_eq_some.mp parts with ⟨whole, rfl⟩
      exact ⟨_, whole, Reads.takeBytes _⟩
  · cases equal

end IsExact

theorem takeBytes_ok {count : Nat} {cursor next : Cursor} {taken : Bytes}
    (equal : (Decoder.takeBytes count).run cursor = (.ok taken, next)) :
    cursor.rest = taken ++ next.rest ∧ taken.length = count ∧
      next = { rest := next.rest, position := cursor.position + count } := by
  simp only [Decoder.takeBytes, Cursor.take?] at equal
  split at equal
  · next found =>
      cases equal
      split at found
      · cases found
      · rcases Option.map_eq_some_iff.mp found with ⟨⟨first, others⟩, parts, split⟩
        cases split
        rcases Bytes.splitAt?_eq_some.mp parts with ⟨whole, length⟩
        exact ⟨whole, length, rfl⟩
  · cases equal

/-! What exact decoders read. -/

theorem Reads.run {decoder : Decoder ε α} {taken : Bytes} {value : α}
    (reads : decoder.Reads taken value) :
    decoder.run { rest := taken } = (.ok value, { rest := [], position := taken.length }) := by
  have whole := reads [] 0
  rwa [List.append_nil, Nat.zero_add] at whole

theorem IsExact.reads_of_run {decoder : Decoder ε α} (exact : decoder.IsExact) {taken : Bytes}
    {value : α} {next : Cursor} {position : Nat}
    (equal : decoder.run { rest := taken, position } = (.ok value, next))
    (exhausted : next.rest = []) : decoder.Reads taken value := by
  rcases exact _ _ _ _ equal with ⟨all, whole, reads⟩
  rwa [whole, exhausted, List.append_nil]

theorem IsExact.place {decoder : Decoder ε α} (exact : decoder.IsExact) {rest : Bytes}
    {position : Nat} {value : α} {next : Cursor}
    (equal : decoder.run { rest, position } = (.ok value, next)) :
    ∃ taken, rest = taken ++ next.rest ∧ decoder.Reads taken value ∧
      next = { rest := next.rest, position := position + taken.length } := by
  rcases exact _ _ _ _ equal with ⟨taken, whole, reads⟩
  refine ⟨taken, whole, reads, ?_⟩
  rw [whole, reads] at equal
  exact (Prod.mk.inj equal).2.symm

/-- What follows the bytes of a value makes no difference. -/
theorem IsExact.decode_eq_ok_iff {decoder : Decoder ε α} (exact : decoder.IsExact) {bytes : Bytes}
    {value : α} :
    decoder.decode bytes = .ok value ↔
      ∃ taken rest, bytes = taken ++ rest ∧ decoder.Reads taken value := by
  constructor
  · intro decoded
    rcases exact _ _ _ _ (Prod.ext decoded rfl) with ⟨taken, whole, reads⟩
    exact ⟨taken, _, whole, reads⟩
  · rintro ⟨taken, rest, rfl, reads⟩
    exact congrArg Prod.fst (reads rest 0)

theorem reads_pure_iff {taken : Bytes} {value result : α} :
    (pure value : Decoder ε α).Reads taken result ↔ taken = [] ∧ value = result := by
  constructor
  · intro reads
    have same := reads.run
    rw [run_pure] at same
    cases taken with
    | nil =>
        cases same
        exact ⟨rfl, rfl⟩
    | cons byte bytes => cases same
  · rintro ⟨rfl, rfl⟩
    exact .pure value

theorem exists_run_of_bind {first : Decoder ε α} {next : α → Decoder ε β} {cursor last : Cursor}
    {result : β} (equal : (first >>= next).run cursor = (.ok result, last)) :
    ∃ value middle, first.run cursor = (.ok value, middle) ∧
      (next value).run middle = (.ok result, last) := by
  rw [run_bind] at equal
  split at equal
  · next value middle found => exact ⟨value, middle, found, equal⟩
  · cases equal

theorem pure_ne_error (value : α) (cursor : Cursor) (fault : ε) :
    ((pure value : Decoder ε α).run cursor).1 ≠ .error fault := by
  intro impossible
  cases impossible

theorem bind_error_iff {first : Decoder ε α} {next : α → Decoder ε β} {fault : ε}
    (never : ∀ value cursor, ((next value).run cursor).1 ≠ .error fault) {cursor : Cursor} :
    ((first >>= next).run cursor).1 = .error fault ↔ (first.run cursor).1 = .error fault := by
  rw [run_bind]
  rcases first.run cursor with ⟨other | value, middle⟩
  · simp only [Except.error.injEq]
  · exact iff_of_false (never value middle) nofun

theorem IsExact.bind_ok {first : Decoder ε α} {next : α → Decoder ε β} (exact : first.IsExact)
    {rest : Bytes} {position : Nat} {result : β} {last : Cursor}
    (equal : (first >>= next).run { rest, position } = (.ok result, last)) :
    ∃ taken value behind, rest = taken ++ behind ∧ first.Reads taken value ∧
      (next value).run { rest := behind, position := position + taken.length } =
        (.ok result, last) := by
  rcases exists_run_of_bind equal with ⟨value, middle, found, equal⟩
  rcases exact.place found with ⟨taken, whole, reads, placed⟩
  rw [placed] at equal
  exact ⟨taken, value, middle.rest, whole, reads, equal⟩

theorem reads_bind_iff {first : Decoder ε α} {next : α → Decoder ε β} (exact : first.IsExact)
    (exactNext : ∀ value, (next value).IsExact) {taken : Bytes} {result : β} :
    (first >>= next).Reads taken result ↔
      ∃ front value behind, taken = front ++ behind ∧ first.Reads front value ∧
        (next value).Reads behind result := by
  constructor
  · intro reads
    rcases exact.bind_ok reads.run with ⟨front, value, behind, whole, firstReads, equal⟩
    exact ⟨front, value, behind, whole, firstReads, (exactNext value).reads_of_run equal rfl⟩
  · rintro ⟨front, value, behind, rfl, firstReads, nextReads⟩
    exact firstReads.bind nextReads

theorem reads_takeBytes_iff {count : Nat} {taken value : Bytes} :
    (Decoder.takeBytes count).Reads taken value ↔ taken.length = count ∧ taken = value := by
  constructor
  · intro reads
    have equal := reads.run
    simp only [Decoder.takeBytes, Cursor.take?, Bool.false_eq_true, if_false] at equal
    cases parts : Bytes.splitAt? count taken with
    | none =>
        rw [parts] at equal
        cases equal
    | some pair =>
        rw [parts] at equal
        simp only [Option.map_some, Prod.mk.injEq, Except.ok.injEq, Cursor.mk.injEq] at equal
        rcases equal with ⟨rfl, nothing, -⟩
        rcases Bytes.splitAt?_eq_some.mp parts with ⟨whole, length⟩
        rw [nothing, List.append_nil] at whole
        exact ⟨whole ▸ length, whole⟩
  · rintro ⟨rfl, rfl⟩
    exact .takeBytes taken

theorem reads_read_iff [Packed α] {taken : Bytes} {value : α} :
    (Decoder.read α).Reads taken value ↔
      taken.length = Packed.width α ∧ Packed.decode taken = value := by
  simp only [Decoder.read]
  rw [reads_bind_iff (.takeBytes _) fun bytes => .pure _]
  constructor
  · rintro ⟨front, bytes, behind, rfl, taking, decoding⟩
    rcases reads_takeBytes_iff.mp taking with ⟨length, rfl⟩
    rcases reads_pure_iff.mp decoding with ⟨rfl, decoded⟩
    rw [List.append_nil]
    exact ⟨length, decoded⟩
  · rintro ⟨length, decoded⟩
    exact ⟨taken, taken, [], (List.append_nil taken).symm,
      reads_takeBytes_iff.mpr ⟨length, rfl⟩, reads_pure_iff.mpr ⟨rfl, decoded⟩⟩

/-! Decoders that are blind to positions. -/

inductive SameResult (kind : ε → ε) : Except ε α × Cursor → Except ε α × Cursor → Prop
  | ok {value : α} {first second : Cursor} (agrees : first.Agrees second) :
      SameResult kind (.ok value, first) (.ok value, second)
  | error {firstFault secondFault : ε} {first second : Cursor}
      (sameKind : kind firstFault = kind secondFault) (agrees : first.Agrees second) :
      SameResult kind (.error firstFault, first) (.error secondFault, second)

/-- The result depends on the position in the offsets of faults only. -/
def IsBlind (kind : ε → ε) (decoder : Decoder ε α) : Prop :=
  ∀ first second, first.Agrees second →
    SameResult kind (decoder.run first) (decoder.run second)

namespace IsBlind

theorem pure (kind : ε → ε) (value : α) : IsBlind kind (pure value : Decoder ε α) := by
  intro first second agrees
  exact .ok agrees

theorem fail (kind : ε → ε) (fault : ε) : IsBlind kind (fail fault : Decoder ε α) := by
  intro first second agrees
  exact .error rfl agrees

theorem bind {kind : ε → ε} {decoder : Decoder ε α} {next : α → Decoder ε β}
    (blind : decoder.IsBlind kind) (blindNext : ∀ value, (next value).IsBlind kind) :
    (decoder >>= next).IsBlind kind := by
  intro first second agrees
  have same := blind first second agrees
  simp only [run_bind]
  generalize decoder.run first = firstResult, decoder.run second = secondResult at same
  cases same with
  | ok agreesNext => exact blindNext _ _ _ agreesNext
  | error sameKind agreesNext => exact .error sameKind agreesNext

theorem mapFault {kind : ε → ε} {kindAfter : δ → δ} {decoder : Decoder ε α}
    (blind : decoder.IsBlind kind) (wrap : ε → δ)
    (wraps : ∀ fault, kindAfter (wrap fault) = wrap (kind fault)) :
    (decoder.mapFault wrap).IsBlind kindAfter := by
  intro first second agrees
  have same := blind first second agrees
  simp only [Decoder.mapFault]
  generalize decoder.run first = firstResult, decoder.run second = secondResult at same
  cases same with
  | ok agreesNext => exact .ok agreesNext
  | error sameKind agreesNext => exact .error (by rw [wraps, wraps, sameKind]) agreesNext

theorem takeBytes (count : Nat) : (Decoder.takeBytes count).IsBlind ReadError.kind := by
  intro first second agrees
  simp only [Decoder.takeBytes]
  rcases agrees.take? count with ⟨firstNone, secondNone⟩ |
    ⟨taken, next, other, firstSome, secondSome, agreesNext⟩
  · simp only [Cursor.skip, firstNone, secondNone]
    exact .error rfl ⟨rfl, rfl⟩
  · simp only [firstSome, secondSome]
    exact .ok agreesNext

theorem run_ok {kind : ε → ε} {decoder : Decoder ε α} (blind : decoder.IsBlind kind)
    {first second next : Cursor} {value : α} (agrees : first.Agrees second)
    (equal : decoder.run first = (.ok value, next)) :
    ∃ after, decoder.run second = (.ok value, after) ∧ next.Agrees after := by
  have same := blind first second agrees
  rw [equal] at same
  generalize decoder.run second = result at same ⊢
  cases same with
  | ok agreesNext => exact ⟨_, rfl, agreesNext⟩

end IsBlind

/-! The faults of a decoder. -/

def FailsWith (allowed : ε → Prop) (decoder : Decoder ε α) : Prop :=
  ∀ cursor fault next, decoder.run cursor = (.error fault, next) → allowed fault

namespace FailsWith

variable {allowed : ε → Prop}

theorem pure (value : α) : FailsWith allowed (pure value : Decoder ε α) := by
  intro cursor fault next equal
  cases equal

theorem fail {fault : ε} (isAllowed : allowed fault) :
    FailsWith allowed (fail fault : Decoder ε α) := by
  intro cursor other next equal
  cases equal
  exact isAllowed

theorem bind {first : Decoder ε α} {next : α → Decoder ε β} (fails : first.FailsWith allowed)
    (failsNext : ∀ value, (next value).FailsWith allowed) :
    (first >>= next).FailsWith allowed := by
  intro cursor fault last equal
  rw [run_bind] at equal
  split at equal
  · next value middle _ => exact failsNext value middle fault last equal
  · next found =>
      cases equal
      exact fails _ _ _ found

theorem mapFault {wrap : ε → δ} {allowedAfter : δ → Prop} {decoder : Decoder ε α}
    (fails : decoder.FailsWith allowed)
    (wraps : ∀ fault, allowed fault → allowedAfter (wrap fault)) :
    (decoder.mapFault wrap).FailsWith allowedAfter := by
  intro cursor fault next equal
  simp only [Decoder.mapFault] at equal
  split at equal
  · cases equal
  · next found =>
      cases equal
      exact wraps _ (fails _ _ _ found)

theorem takeBytes (count : Nat) : (Decoder.takeBytes count).FailsWith ReadError.IsOutOfBounds := by
  intro cursor fault next equal
  simp only [Decoder.takeBytes] at equal
  split at equal
  · cases equal
  · cases equal
    exact ⟨_, rfl⟩

end FailsWith

/-! All of it at once. -/

/-- A decoder that depends on what it takes only, and whose faults are known. -/
structure IsRegular (kind : ε → ε) (allowed : ε → Prop) (decoder : Decoder ε α) : Prop where
  exact : decoder.IsExact
  blind : decoder.IsBlind kind
  fails : decoder.FailsWith allowed

namespace IsRegular

variable {kind : ε → ε} {allowed : ε → Prop}

theorem pure (value : α) : IsRegular kind allowed (pure value : Decoder ε α) :=
  ⟨.pure value, .pure kind value, .pure value⟩

theorem fail {fault : ε} (isAllowed : allowed fault) :
    IsRegular kind allowed (fail fault : Decoder ε α) :=
  ⟨.fail fault, .fail kind fault, .fail isAllowed⟩

theorem bind {first : Decoder ε α} {next : α → Decoder ε β}
    (regular : first.IsRegular kind allowed)
    (regularNext : ∀ value, (next value).IsRegular kind allowed) :
    (first >>= next).IsRegular kind allowed :=
  ⟨regular.exact.bind fun value => (regularNext value).exact,
    regular.blind.bind fun value => (regularNext value).blind,
    regular.fails.bind fun value => (regularNext value).fails⟩

theorem mapFault {kindAfter : δ → δ} {allowedAfter : δ → Prop} {decoder : Decoder ε α}
    (regular : decoder.IsRegular kind allowed) (wrap : ε → δ)
    (wraps : ∀ fault, kindAfter (wrap fault) = wrap (kind fault))
    (allows : ∀ fault, allowed fault → allowedAfter (wrap fault)) :
    (decoder.mapFault wrap).IsRegular kindAfter allowedAfter :=
  ⟨regular.exact.mapFault wrap, regular.blind.mapFault wrap wraps, regular.fails.mapFault allows⟩

theorem takeBytes (count : Nat) :
    (Decoder.takeBytes count).IsRegular ReadError.kind ReadError.IsOutOfBounds :=
  ⟨.takeBytes count, .takeBytes count, .takeBytes count⟩

theorem read [Packed α] :
    (Decoder.read α).IsRegular ReadError.kind ReadError.IsOutOfBounds :=
  bind (takeBytes _) fun _ => pure _

theorem weaken {wider : ε → Prop} {decoder : Decoder ε α}
    (regular : decoder.IsRegular kind allowed) (implies : ∀ fault, allowed fault → wider fault) :
    decoder.IsRegular kind wider :=
  ⟨regular.exact, regular.blind, fun _ _ _ equal => implies _ (regular.fails _ _ _ equal)⟩

end IsRegular

end Decoder

end Letterform
