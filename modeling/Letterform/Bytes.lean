import Letterform.Number.Power

/-!
Byte strings and the big-endian numbers they spell. A stretch of font data is
the list of its bytes, so a table followed by other tables is an append.
-/

namespace Letterform

attribute [local instance] naturalPower

abbrev Bytes := List UInt8

namespace Bytes

/-! Big-endian numbers. -/

def number (bytes : Bytes) : Nat :=
  bytes.foldl (fun total byte => 256 * total + byte.toNat) 0

/-- The low `width` bytes of a number, most significant first. -/
def ofNumber : (width : Nat) → (value : Nat) → Bytes
  | 0, _ => []
  | width + 1, value => UInt8.ofNat (value / 256 ^ width) :: ofNumber width value

theorem foldl_number (bytes : Bytes) (start : Nat) :
    bytes.foldl (fun total byte => 256 * total + byte.toNat) start =
      start * 256 ^ bytes.length + number bytes := by
  induction bytes generalizing start with
  | nil => simp [number]
  | cons byte bytes induction =>
      have unfolded : number (byte :: bytes) =
          (256 * 0 + byte.toNat) * 256 ^ bytes.length + number bytes := induction _
      rw [List.foldl_cons, induction, unfolded, List.length_cons, Nat.pow_succ, Nat.mul_zero,
        Nat.zero_add, Nat.add_mul, Nat.mul_comm 256 start, Nat.mul_assoc, Nat.mul_comm 256,
        Nat.add_assoc]

theorem number_nil : number [] = 0 := rfl

theorem number_cons (byte : UInt8) (bytes : Bytes) :
    number (byte :: bytes) = byte.toNat * 256 ^ bytes.length + number bytes := by
  simpa [number] using foldl_number bytes byte.toNat

@[simp] theorem length_ofNumber (width value : Nat) :
    (ofNumber width value).length = width := by
  induction width with
  | zero => rfl
  | succ width induction => simp [ofNumber, induction]

theorem number_ofNumber (width value : Nat) :
    number (ofNumber width value) = value % 256 ^ width := by
  induction width with
  | zero => simp [ofNumber, number_nil, Nat.mod_one]
  | succ width induction =>
      rw [ofNumber, number_cons, induction, length_ofNumber, Nat.mod_pow_succ,
        UInt8.toNat_ofNat', Nat.mul_comm, Nat.add_comm]

theorem number_lt (bytes : Bytes) : number bytes < 256 ^ bytes.length := by
  induction bytes with
  | nil => simp [number_nil]
  | cons byte bytes induction =>
      rw [number_cons, List.length_cons, Nat.pow_succ, Nat.mul_comm (256 ^ bytes.length)]
      have bound : byte.toNat + 1 ≤ 256 := byte.toNat_lt
      have scaled := Nat.mul_le_mul_right (256 ^ bytes.length) bound
      rw [Nat.add_mul, Nat.one_mul] at scaled
      omega

/-! Parts of a byte string. Every part is asked for by exact bounds and is
absent when it would reach past the end. -/

def splitAt? (count : Nat) (bytes : Bytes) : Option (Bytes × Bytes) :=
  let taken := bytes.take count
  if taken.length = count then some (taken, bytes.drop count) else none

def from? (bytes : Bytes) (start : Nat) : Option Bytes :=
  if start ≤ bytes.length then some (bytes.drop start) else none

def slice? (bytes : Bytes) (start stop : Nat) : Option Bytes :=
  if start ≤ stop ∧ stop ≤ bytes.length then some ((bytes.drop start).take (stop - start))
  else none

theorem splitAt?_append (taken rest : Bytes) :
    splitAt? taken.length (taken ++ rest) = some (taken, rest) := by
  simp [splitAt?]

theorem splitAt?_eq_some {count : Nat} {bytes taken rest : Bytes} :
    splitAt? count bytes = some (taken, rest) ↔ bytes = taken ++ rest ∧ taken.length = count := by
  constructor
  · intro equal
    simp only [splitAt?] at equal
    split at equal
    · next exact =>
        cases equal
        exact ⟨(List.take_append_drop count bytes).symm, exact⟩
    · cases equal
  · rintro ⟨rfl, rfl⟩
    exact splitAt?_append taken rest

theorem splitAt?_eq_none {count : Nat} {bytes : Bytes} :
    splitAt? count bytes = none ↔ bytes.length < count := by
  simp only [splitAt?, List.length_take]
  split <;> simp <;> omega

end Bytes

end Letterform
