import Letterform.Bytes.Packed
import Letterform.ReadError

/-!
Reading from front to back. A cursor holds the bytes still ahead of it. A read
that wants more than that fails, and still moves the cursor: from then on it
stands past the end, nothing is ahead of it and every further read fails.
-/

namespace Letterform

def lastOffset : Nat := 0xFFFFFFFFFFFFFFFF

structure Cursor where
  rest : Bytes
  position : Nat := 0
  overrun : Bool := false
  deriving DecidableEq, Repr

namespace Cursor

def ofBytes (bytes : Bytes) : Cursor := { rest := bytes }

def take? (count : Nat) (cursor : Cursor) : Option (Bytes × Cursor) :=
  if cursor.overrun then none
  else (cursor.rest.splitAt? count).map fun (taken, rest) =>
    (taken, { rest, position := cursor.position + count })

def skip (count : Nat) (cursor : Cursor) : Cursor :=
  match cursor.take? count with
  | some (_, next) => next
  | none =>
      { rest := [], position := min (cursor.position + count) lastOffset, overrun := true }

def position? (cursor : Cursor) : Except ReadError Nat :=
  if cursor.overrun then .error (.outOfBounds cursor.position) else .ok cursor.position

def remaining? (cursor : Cursor) : Option Bytes :=
  if cursor.overrun then none else some cursor.rest

theorem take?_shortens {count : Nat} {cursor next : Cursor} {taken : Bytes}
    (equal : cursor.take? count = some (taken, next)) :
    cursor.rest.length = count + next.rest.length := by
  simp only [take?] at equal
  split at equal
  · cases equal
  · obtain ⟨⟨first, rest⟩, split, equal⟩ := Option.map_eq_some_iff.mp equal
    obtain ⟨whole, length⟩ := Bytes.splitAt?_eq_some.mp split
    cases equal
    simp [whole, length]

theorem skip_shortens (count : Nat) (cursor : Cursor) :
    (cursor.skip count).rest.length ≤ cursor.rest.length := by
  unfold skip
  split
  · next equal =>
      have := take?_shortens equal
      omega
  · simp

end Cursor

namespace Bytes

/-! Reading at an offset. -/

def readAt (α : Type) [Packed α] (bytes : Bytes) (offset : Nat) : Except ReadError α :=
  match splitAt? (Packed.width α) (bytes.drop offset) with
  | some (taken, _) => .ok (Packed.decode taken)
  | none => .error (.outOfBounds offset)

def readItems (α : Type) [Packed α] (bytes : Bytes) (start stop : Nat) :
    Except ReadError (List α) :=
  match bytes.slice? start stop with
  | none => .error (.outOfBounds start)
  | some items =>
      if items.length % Packed.width α = 0 then
        .ok (Packed.decodeList α (items.length / Packed.width α) items)
      else .error .invalidArrayLength

def readFrom (bytes : Bytes) (start : Nat) : Except ReadError Bytes :=
  match bytes.from? start with
  | some rest => .ok rest
  | none => .error (.outOfBounds start)

end Bytes

end Letterform
