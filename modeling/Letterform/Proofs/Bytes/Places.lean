import Letterform.Proofs.Bytes.Reading

/-!
Where decoders read. While some bytes are read from front to back, the cursor is told by its
position alone, and a value that is read stands in the bytes at that position.
-/

namespace Letterform

theorem Packed.getElem?_decodeList {α : Type} [Packed α] {count index : Nat}
    (within : index < count) (bytes : Bytes) :
    (decodeList α count bytes)[index]? =
      some (decode ((bytes.drop (index * width α)).take (width α))) := by
  induction count generalizing index bytes with
  | zero => cases within
  | succ count induction =>
      rw [decodeList]
      cases index with
      | zero => rw [Nat.zero_mul, List.drop_zero, List.getElem?_cons_zero]
      | succ index =>
          rw [List.getElem?_cons_succ, induction (Nat.lt_of_succ_lt_succ within), List.drop_drop,
            Nat.succ_mul, Nat.add_comm]

namespace Bytes

variable {bytes : Bytes} {position count : Nat}

def cursorAt (bytes : Bytes) (position : Nat) : Cursor :=
  if position ≤ bytes.length then { rest := bytes.drop position, position }
  else { rest := [], position := min position lastOffset, overrun := true }

def HoldsFrom {α : Type} [Packed α] (bytes : Bytes) (start : Nat) (values : List α) : Prop :=
  ∀ index value, values[index]? = some value →
    bytes.readAt α (start + index * Packed.width α) = .ok value

theorem readAt_of_within {α : Type} [Packed α]
    (within : position + Packed.width α ≤ bytes.length) :
    bytes.readAt α position =
      .ok (Packed.decode ((bytes.drop position).take (Packed.width α))) := by
  have length : ((bytes.drop position).take (Packed.width α)).length = Packed.width α := by
    rw [List.length_take_of_le]
    rw [List.length_drop]
    omega
  simp only [readAt, splitAt?, length, if_true]

theorem within_of_readAt {α : Type} [Packed α] {value : α}
    (stands : bytes.readAt α position = .ok value) :
    position + Packed.width α ≤ bytes.length := by
  rw [readAt] at stands
  split at stands
  · next found =>
      have positive : 0 < Packed.width α := Packed.width_pos
      have enough : ¬(bytes.drop position).length < Packed.width α := by
        intro short
        rw [splitAt?_eq_none.mpr short] at found
        cases found
      rw [List.length_drop] at enough
      omega
  · cases stands

theorem holdsFrom_nil {α : Type} [Packed α] : bytes.HoldsFrom position ([] : List α) := by
  intro index value member
  cases member

theorem HoldsFrom.cons {α : Type} [Packed α] {value : α} {values : List α}
    (first : bytes.readAt α position = .ok value)
    (others : bytes.HoldsFrom (position + Packed.width α) values) :
    bytes.HoldsFrom position (value :: values) := by
  intro index other member
  cases index with
  | zero =>
      cases member
      rwa [Nat.zero_mul, Nat.add_zero]
  | succ index =>
      have stands := others index other member
      rwa [Nat.add_assoc, Nat.add_comm (Packed.width α), ← Nat.succ_mul] at stands

theorem cursorAt_of_le (within : position ≤ bytes.length) :
    bytes.cursorAt position = { rest := bytes.drop position, position } :=
  if_pos within

theorem cursorAt_of_lt (beyond : bytes.length < position) :
    bytes.cursorAt position =
      { rest := [], position := min position lastOffset, overrun := true } :=
  if_neg (Nat.not_le.mpr beyond)

theorem cursorAt_zero (bytes : Bytes) : bytes.cursorAt 0 = Cursor.ofBytes bytes :=
  cursorAt_of_le (Nat.zero_le _)

theorem take?_cursorAt_of_le (within : position + count ≤ bytes.length) :
    (bytes.cursorAt position).take? count =
      some ((bytes.drop position).take count, bytes.cursorAt (position + count)) := by
  have parts : splitAt? count (bytes.drop position) =
      some ((bytes.drop position).take count, bytes.drop (position + count)) := by
    rw [splitAt?_eq_some, ← List.drop_drop, List.take_append_drop, List.length_take_of_le]
    · exact ⟨rfl, rfl⟩
    · rw [List.length_drop]
      omega
  rw [cursorAt_of_le within, cursorAt_of_le (Nat.le_trans (Nat.le_add_right _ _) within)]
  simp only [Cursor.take?, Bool.false_eq_true, if_false, parts, Option.map_some]

theorem take?_cursorAt_of_lt (beyond : bytes.length < position + count) :
    (bytes.cursorAt position).take? count = none := by
  by_cases within : position ≤ bytes.length
  · have missing : splitAt? count (bytes.drop position) = none := by
      rw [splitAt?_eq_none, List.length_drop]
      omega
    rw [cursorAt_of_le within]
    simp only [Cursor.take?, Bool.false_eq_true, if_false, missing, Option.map_none]
  · rw [cursorAt_of_lt (Nat.lt_of_not_le within)]
    rfl

theorem skip_cursorAt (bytes : Bytes) (position count : Nat) :
    (bytes.cursorAt position).skip count = bytes.cursorAt (position + count) := by
  by_cases within : position + count ≤ bytes.length
  · rw [Cursor.skip, take?_cursorAt_of_le within]
  · have beyond := Nat.lt_of_not_le within
    rw [Cursor.skip, take?_cursorAt_of_lt beyond, cursorAt_of_lt beyond]
    simp only [cursorAt]
    split
    · rfl
    · simp only [Cursor.mk.injEq, true_and, and_true]
      omega

end Bytes

namespace Decoder

theorem skip_bind_cursorAt {ε β : Type} (bytes : Bytes) (position count : Nat)
    (next : Unit → Decoder ε β) :
    (skip count >>= next).run (bytes.cursorAt position) =
      (next ()).run (bytes.cursorAt (position + count)) :=
  congrArg (next ()).run (bytes.skip_cursorAt position count)

variable {α : Type} [Packed α] {bytes : Bytes} {position count : Nat} {next : Cursor}

theorem takeBytes_cursorAt_of_le (within : position + count ≤ bytes.length) :
    (takeBytes count).run (bytes.cursorAt position) =
      (.ok ((bytes.drop position).take count), bytes.cursorAt (position + count)) := by
  simp only [takeBytes, Bytes.take?_cursorAt_of_le within]

theorem takeBytes_cursorAt {taken : Bytes}
    (equal : (takeBytes count).run (bytes.cursorAt position) = (.ok taken, next)) :
    position + count ≤ bytes.length ∧ taken = (bytes.drop position).take count ∧
      next = bytes.cursorAt (position + count) := by
  by_cases within : position + count ≤ bytes.length
  · rw [takeBytes_cursorAt_of_le within] at equal
    cases equal
    exact ⟨within, rfl, rfl⟩
  · simp only [takeBytes, Bytes.take?_cursorAt_of_lt (Nat.lt_of_not_le within)] at equal
    cases equal

theorem toOption_takeBytes_cursorAt :
    ((takeBytes count).run (bytes.cursorAt position)).1.toOption =
      bytes.slice? position (position + count) := by
  rw [Bytes.slice?, Nat.add_sub_cancel_left]
  by_cases within : position + count ≤ bytes.length
  · rw [takeBytes_cursorAt_of_le within, if_pos ⟨Nat.le_add_right _ _, within⟩]
    rfl
  · simp only [takeBytes, Bytes.take?_cursorAt_of_lt (Nat.lt_of_not_le within)]
    rw [if_neg fun inside => within inside.2]
    rfl

theorem read_cursorAt {value : α}
    (equal : (read α).run (bytes.cursorAt position) = (.ok value, next)) :
    bytes.readAt α position = .ok value ∧ next = bytes.cursorAt (position + Packed.width α) := by
  rcases exists_run_of_bind equal with ⟨taken, middle, found, decoded⟩
  rcases takeBytes_cursorAt found with ⟨within, rfl, rfl⟩
  cases decoded
  exact ⟨Bytes.readAt_of_within within, rfl⟩

theorem read_cursorAt_of_readAt {value : α} (stands : bytes.readAt α position = .ok value) :
    (read α).run (bytes.cursorAt position) =
      (.ok value, bytes.cursorAt (position + Packed.width α)) := by
  have within := Bytes.within_of_readAt stands
  rw [Bytes.readAt_of_within within] at stands
  cases stands
  rw [read, run_bind, takeBytes_cursorAt_of_le within]
  rfl

theorem read_bind_cursorAt {β : Type} {following : α → Decoder ReadError β} {result : β}
    (equal : (read α >>= following).run (bytes.cursorAt position) = (.ok result, next)) :
    ∃ value, bytes.readAt α position = .ok value ∧
      (following value).run (bytes.cursorAt (position + Packed.width α)) = (.ok result, next) := by
  rcases exists_run_of_bind equal with ⟨value, middle, found, equal⟩
  rcases read_cursorAt found with ⟨stands, rfl⟩
  exact ⟨value, stands, equal⟩

theorem toOption_read_bind_cursorAt_iff {β : Type} {following : α → Decoder ReadError β}
    {result : β} :
    ((read α >>= following).run (bytes.cursorAt position)).1.toOption = some result ↔
      ∃ value, bytes.readAt α position = .ok value ∧
        ((following value).run (bytes.cursorAt (position + Packed.width α))).1.toOption =
          some result := by
  constructor
  · intro found
    rw [run_bind] at found
    generalize first : (read α).run (bytes.cursorAt position) = outcome at found
    rcases outcome with ⟨fault | value, middle⟩
    · cases found
    · rcases read_cursorAt first with ⟨stands, rfl⟩
      exact ⟨value, stands, found⟩
  · rintro ⟨value, stands, found⟩
    rwa [run_bind, read_cursorAt_of_readAt stands]

theorem readList_cursorAt {values : List α}
    (equal : (readList α count).run (bytes.cursorAt position) = (.ok values, next)) :
    values.length = count ∧ bytes.HoldsFrom position values ∧
      next = bytes.cursorAt (position + count * Packed.width α) := by
  simp only [readList] at equal
  split at equal
  · cases equal
  · rcases exists_run_of_bind equal with ⟨taken, middle, found, decoded⟩
    rcases takeBytes_cursorAt found with ⟨within, rfl, rfl⟩
    cases decoded
    refine ⟨Packed.length_decodeList _ _, ?_, rfl⟩
    intro index value member
    have inside : index < count := by
      have bound := (List.getElem?_eq_some_iff.mp member).1
      rwa [Packed.length_decodeList] at bound
    have room : index * Packed.width α + Packed.width α ≤ count * Packed.width α := by
      rw [← Nat.succ_mul]
      exact Nat.mul_le_mul_right _ inside
    rw [Packed.getElem?_decodeList inside, List.drop_take, List.take_take, List.drop_drop,
      Nat.min_eq_left (by omega)] at member
    rw [Bytes.readAt_of_within (by omega)]
    exact congrArg Except.ok (Option.some.inj member)

theorem readList_bind_cursorAt {β : Type} {following : List α → Decoder ReadError β} {result : β}
    (equal : (readList α count >>= following).run (bytes.cursorAt position) = (.ok result, next)) :
    ∃ values, values.length = count ∧ bytes.HoldsFrom position values ∧
      (following values).run (bytes.cursorAt (position + count * Packed.width α)) =
        (.ok result, next) := by
  rcases exists_run_of_bind equal with ⟨values, middle, found, equal⟩
  rcases readList_cursorAt found with ⟨length, holds, rfl⟩
  exact ⟨values, length, holds, equal⟩

end Decoder

end Letterform
