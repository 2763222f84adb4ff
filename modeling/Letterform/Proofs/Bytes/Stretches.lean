import Letterform.Proofs.Bytes.Places

/-!
Decoders that take a known number of bytes. At every position within some bytes, such a decoder
either finds as many bytes as it takes, and then its value stands there, or the bytes end too early.
Read one behind the other, several of them are such a decoder again.
-/

namespace Letterform

namespace Decoder

variable {α β : Type} {count : Nat}

/-- What comes of reading `count` bytes at a position: a value that stands there and the cursor
behind it, or a fault in front of the bytes that are missing. -/
inductive IsStretch (bytes : Bytes) (position count : Nat) (stands : α → Prop) :
    Except ReadError α × Cursor → Prop
  | whole {value : α} (within : position + count ≤ bytes.length) (holds : stands value) :
      IsStretch bytes position count stands (.ok value, bytes.cursorAt (position + count))
  | cut {offset : Nat} {next : Cursor} (short : bytes.length < position + count)
      (started : position ≤ offset) (reached : offset ≤ bytes.length) :
      IsStretch bytes position count stands (.error (.outOfBounds offset), next)

/-- Wherever it starts, the decoder takes `count` bytes for a value that stands there. -/
def Takes (decoder : Decoder ReadError α) (count : Nat) (stands : Bytes → Nat → α → Prop) : Prop :=
  ∀ bytes position, position ≤ bytes.length →
    IsStretch bytes position count (stands bytes position) (decoder.run (bytes.cursorAt position))

namespace Takes

theorem pure (value : α) : (pure value : Decoder ReadError α).Takes 0 fun _ _ => (value = ·) :=
  fun _ _ within => .whole within rfl

theorem takeBytes (count : Nat) : (Decoder.takeBytes count).Takes count fun bytes position taken =>
    (bytes.drop position).take count = taken := by
  intro bytes position inside
  by_cases within : position + count ≤ bytes.length
  · rw [takeBytes_cursorAt_of_le within]
    exact .whole within rfl
  · have beyond := Nat.lt_of_not_le within
    simp only [Decoder.takeBytes]
    rw [Bytes.take?_cursorAt_of_lt beyond, Bytes.cursorAt_of_le inside]
    exact .cut beyond (Nat.le_refl _) inside

theorem bind {first : Decoder ReadError α} {next : α → Decoder ReadError β} {front behind : Nat}
    {firstStands : Bytes → Nat → α → Prop} {nextStands : α → Bytes → Nat → β → Prop}
    (takes : first.Takes front firstStands)
    (takesNext : ∀ value, (next value).Takes behind (nextStands value)) :
    (first >>= next).Takes (front + behind) fun bytes position result =>
      ∃ value, firstStands bytes position value ∧
        nextStands value bytes (position + front) result := by
  intro bytes position inside
  have outcome := takes bytes position inside
  rw [run_bind]
  generalize first.run (bytes.cursorAt position) = result at outcome
  cases outcome with
  | cut short started reached => exact .cut (by omega) started reached
  | @whole value within holds =>
      have outcome := takesNext value bytes (position + front) within
      simp only
      generalize (next value).run (bytes.cursorAt (position + front)) = result at outcome
      cases outcome with
      | cut short started reached => exact .cut (by omega) (by omega) reached
      | whole within holdsNext =>
          rw [Nat.add_assoc] at within ⊢
          exact .whole within ⟨value, holds, holdsNext⟩

theorem weaken {decoder : Decoder ReadError α} {stands wider : Bytes → Nat → α → Prop}
    (takes : decoder.Takes count stands)
    (implies : ∀ bytes position value, position + count ≤ bytes.length →
      stands bytes position value → wider bytes position value) :
    decoder.Takes count wider := by
  intro bytes position inside
  have outcome := takes bytes position inside
  generalize decoder.run (bytes.cursorAt position) = result at outcome
  cases outcome with
  | cut short started reached => exact .cut short started reached
  | whole within holds => exact .whole within (implies _ _ _ within holds)

theorem read [Packed α] : (Decoder.read α).Takes (Packed.width α) fun bytes position value =>
    bytes.readAt α position = .ok value := by
  apply ((takeBytes _).bind fun taken => pure (Packed.decode taken)).weaken
  rintro bytes position value within ⟨taken, rfl, rfl⟩
  exact Bytes.readAt_of_within within

theorem readPair [Packed α] (combine : α → α → β) :
    (do let first ← Decoder.read α
        let second ← Decoder.read α
        return combine first second : Decoder ReadError β).Takes (Packed.width α + Packed.width α)
      fun bytes position result => ∃ first second, bytes.HoldsFrom position [first, second] ∧
        combine first second = result := by
  apply (read.bind fun first => read.bind fun second => pure (combine first second)).weaken
  rintro bytes position _ - ⟨first, firstStands, second, secondStands, rfl⟩
  exact ⟨first, second, .cons firstStands (.cons secondStands Bytes.holdsFrom_nil), rfl⟩

end Takes

end Decoder

end Letterform
