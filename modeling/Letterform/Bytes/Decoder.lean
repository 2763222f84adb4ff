import Letterform.Bytes.Cursor

/-!
Decoders. A decoder reads at a cursor and leaves it somewhere ahead, whether it
succeeds or fails, so a reader may go on after a fault. It never adds bytes to
what is still ahead; this is part of the type, and loops over the remaining
bytes end by it.
-/

namespace Letterform

structure Decoder (ε α : Type) where
  run : Cursor → Except ε α × Cursor
  shortens : ∀ cursor, (run cursor).2.rest.length ≤ cursor.rest.length

namespace Decoder

variable {ε α β : Type}

protected def pure (value : α) : Decoder ε α where
  run cursor := (.ok value, cursor)
  shortens _ := Nat.le_refl _

protected def bind (first : Decoder ε α) (next : α → Decoder ε β) : Decoder ε β where
  run cursor := match first.run cursor with
    | (.ok value, cursor) => (next value).run cursor
    | (.error fault, cursor) => (.error fault, cursor)
  shortens cursor := by
    have bound := first.shortens cursor
    split
    · next equal =>
        rw [equal] at bound
        exact Nat.le_trans ((next _).shortens _) bound
    · next equal =>
        rw [equal] at bound
        exact bound

instance : Monad (Decoder ε) where
  pure := Decoder.pure
  bind := Decoder.bind

def fail (fault : ε) : Decoder ε α where
  run cursor := (.error fault, cursor)
  shortens _ := Nat.le_refl _

def ofExcept : Except ε α → Decoder ε α
  | .ok value => pure value
  | .error fault => fail fault

def mapFault {δ : Type} (wrap : ε → δ) (decoder : Decoder ε α) : Decoder δ α where
  run cursor := match decoder.run cursor with
    | (.ok value, cursor) => (.ok value, cursor)
    | (.error fault, cursor) => (.error (wrap fault), cursor)
  shortens cursor := by
    have bound := decoder.shortens cursor
    split <;> next equal => rw [equal] at bound; exact bound

def skip (count : Nat) : Decoder ε Unit where
  run cursor := (.ok (), cursor.skip count)
  shortens cursor := cursor.skip_shortens count

def takeBytes (count : Nat) : Decoder ReadError Bytes where
  run cursor := match cursor.take? count with
    | some (taken, next) => (.ok taken, next)
    | none => (.error (.outOfBounds cursor.position), cursor.skip count)
  shortens cursor := by
    split
    · next equal =>
        have := Cursor.take?_shortens equal
        simp only
        omega
    · exact cursor.skip_shortens count

def read (α : Type) [Packed α] : Decoder ReadError α :=
  do return Packed.decode (← takeBytes (Packed.width α))

/-- Reads `count` items. When their end lies past every offset that can be named, the
cursor stays where it is. -/
def readList (α : Type) [Packed α] (count : Nat) : Decoder ReadError (List α) where
  run cursor :=
    if lastOffset < cursor.position + count * Packed.width α then
      (.error (.outOfBounds cursor.position), cursor)
    else (do return Packed.decodeList α count (← takeBytes (count * Packed.width α)) :
      Decoder ReadError (List α)).run cursor
  shortens cursor := by
    split
    · exact Nat.le_refl _
    · exact Decoder.shortens _ cursor

def rest : Decoder ε Bytes where
  run cursor := (.ok cursor.rest, cursor)
  shortens _ := Nat.le_refl _

def decode (decoder : Decoder ε α) (bytes : Bytes) : Except ε α :=
  (decoder.run (Cursor.ofBytes bytes)).1

theorem run_pure (value : α) (cursor : Cursor) :
    (pure value : Decoder ε α).run cursor = (.ok value, cursor) := rfl

theorem run_bind (first : Decoder ε α) (next : α → Decoder ε β) (cursor : Cursor) :
    (first >>= next).run cursor = match first.run cursor with
      | (.ok value, cursor) => (next value).run cursor
      | (.error fault, cursor) => (.error fault, cursor) := rfl

/-! Loops that decode until nothing is left end because every round takes at
least one byte. -/

def Consumes (decoder : Decoder ε α) : Prop :=
  ∀ cursor, cursor.rest ≠ [] → (decoder.run cursor).2.rest.length < cursor.rest.length

theorem Consumes.takeBytes {count : Nat} (positive : 0 < count) :
    Consumes (Decoder.takeBytes count) := by
  intro cursor nonempty
  have ahead : 0 < cursor.rest.length := List.length_pos_iff.mpr nonempty
  simp only [Decoder.takeBytes]
  split
  · next equal =>
      have := Cursor.take?_shortens equal
      simp only
      omega
  · next equal => simp [Cursor.skip, equal, ahead]

theorem Consumes.bind {first : Decoder ε α} (consumes : Consumes first)
    (next : α → Decoder ε β) : Consumes (first >>= next) := by
  intro cursor nonempty
  have bound := consumes cursor nonempty
  rw [run_bind]
  split
  · next equal =>
      rw [equal] at bound
      exact Nat.lt_of_le_of_lt ((next _).shortens _) bound
  · next equal =>
      rw [equal] at bound
      exact bound

theorem Consumes.read [Packed α] : Consumes (Decoder.read α) :=
  Consumes.bind (Consumes.takeBytes Packed.width_pos) _

theorem Consumes.mapFault {δ : Type} {decoder : Decoder ε α} (consumes : Consumes decoder)
    (wrap : ε → δ) : Consumes (decoder.mapFault wrap) := by
  intro cursor nonempty
  have bound := consumes cursor nonempty
  simp only [Decoder.mapFault]
  split <;> next equal => rw [equal] at bound; exact bound

/-! Loops that decode until a fault end because every success takes at least one byte. -/

def Advances (decoder : Decoder ε α) : Prop :=
  ∀ cursor next value, decoder.run cursor = (.ok value, next) →
    next.rest.length < cursor.rest.length

theorem Advances.takeBytes {count : Nat} (positive : 0 < count) :
    Advances (Decoder.takeBytes count) := by
  intro cursor next value equal
  simp only [Decoder.takeBytes] at equal
  split at equal
  · next taken =>
      cases equal
      have := Cursor.take?_shortens taken
      omega
  · cases equal

theorem Advances.bind {first : Decoder ε α} (advances : Advances first)
    (next : α → Decoder ε β) : Advances (first >>= next) := by
  intro cursor last value equal
  rw [run_bind] at equal
  split at equal
  · next value middle taken =>
      have bound := (next value).shortens middle
      rw [equal] at bound
      exact Nat.lt_of_le_of_lt bound (advances _ _ _ taken)
  · cases equal

theorem Advances.read [Packed α] : Advances (Decoder.read α) :=
  Advances.bind (Advances.takeBytes Packed.width_pos) _

theorem Advances.mapFault {δ : Type} {decoder : Decoder ε α} (advances : Advances decoder)
    (wrap : ε → δ) : Advances (decoder.mapFault wrap) := by
  intro cursor next value equal
  simp only [Decoder.mapFault] at equal
  split at equal
  · next taken =>
      cases equal
      exact advances _ _ _ taken
  · cases equal

@[ext] theorem ext {first second : Decoder ε α}
    (equal : ∀ cursor, first.run cursor = second.run cursor) : first = second := by
  cases first
  cases second
  congr
  exact funext equal

instance : LawfulMonad (Decoder ε) :=
  LawfulMonad.mk' (Decoder ε)
    (fun decoder => by
      ext1 cursor
      show (match decoder.run cursor with
        | (.ok value, cursor) => (.ok value, cursor)
        | (.error fault, cursor) => (.error fault, cursor)) = decoder.run cursor
      rcases decoder.run cursor with ⟨_ | _, _⟩ <;> rfl)
    (fun _ _ => rfl)
    (fun first next last => by
      ext1 cursor
      simp only [run_bind]
      rcases first.run cursor with ⟨_ | _, _⟩ <;> rfl)

end Decoder

end Letterform
