import Letterform.Bytes

/-!
Values of a fixed encoded width. A scalar is its big-endian number; a record is
its fields one after the other. Decoding undoes encoding for every instance.
-/

namespace Letterform

attribute [local instance] naturalPower

class Packed (α : Type) where
  width : Nat
  width_pos : 0 < width
  decode : Bytes → α
  encode : α → Bytes
  length_encode : ∀ value, (encode value).length = width
  decode_encode : ∀ value, decode (encode value) = value

namespace Packed

attribute [simp] length_encode decode_encode

@[reducible] def ofNumber {α : Type} (width : Nat) (width_pos : 0 < width)
    (toNat : α → Nat) (ofNat : Nat → α) (toNat_lt : ∀ value, toNat value < 256 ^ width)
    (ofNat_toNat : ∀ value, ofNat (toNat value) = value) : Packed α where
  width
  width_pos
  decode bytes := ofNat bytes.number
  encode value := Bytes.ofNumber width (toNat value)
  length_encode value := Bytes.length_ofNumber width (toNat value)
  decode_encode value := by
    rw [Bytes.number_ofNumber, Nat.mod_eq_of_lt (toNat_lt value), ofNat_toNat]

instance : Packed UInt8 :=
  ofNumber 1 (by decide) UInt8.toNat UInt8.ofNat UInt8.toNat_lt fun _ => UInt8.ofNat_toNat

instance : Packed UInt16 :=
  ofNumber 2 (by decide) UInt16.toNat UInt16.ofNat UInt16.toNat_lt fun _ => UInt16.ofNat_toNat

instance : Packed UInt32 :=
  ofNumber 4 (by decide) UInt32.toNat UInt32.ofNat UInt32.toNat_lt fun _ => UInt32.ofNat_toNat

instance : Packed Int8 :=
  ofNumber 1 (by decide) (fun value => value.toUInt8.toNat)
    (fun value => (UInt8.ofNat value).toInt8)
    (fun value => value.toUInt8.toNat_lt) (fun value => by simp)

instance : Packed Int16 :=
  ofNumber 2 (by decide) (fun value => value.toUInt16.toNat)
    (fun value => (UInt16.ofNat value).toInt16)
    (fun value => value.toUInt16.toNat_lt) (fun value => by simp)

instance : Packed Int32 :=
  ofNumber 4 (by decide) (fun value => value.toUInt32.toNat)
    (fun value => (UInt32.ofNat value).toInt32)
    (fun value => value.toUInt32.toNat_lt) (fun value => by simp)

instance {α β : Type} [Packed α] [Packed β] : Packed (α × β) where
  width := width α + width β
  width_pos := Nat.add_pos_left width_pos _
  decode bytes := (decode (bytes.take (width α)), decode (bytes.drop (width α)))
  encode pair := encode pair.1 ++ encode pair.2
  length_encode pair := by simp
  decode_encode pair := by simp

@[reducible] def through {α β : Type} [Packed β] (store : α → β) (load : β → α)
    (load_store : ∀ value, load (store value) = value) : Packed α where
  width := width β
  width_pos := width_pos
  decode bytes := load (decode bytes)
  encode value := encode (store value)
  length_encode value := length_encode (store value)
  decode_encode value := by rw [decode_encode, load_store]

def ofBytes? (α : Type) [Packed α] (bytes : Bytes) : Option α :=
  if bytes.length = width α then some (decode bytes) else none

def decodeList (α : Type) [Packed α] : (count : Nat) → Bytes → List α
  | 0, _ => []
  | count + 1, bytes => decode (bytes.take (width α)) :: decodeList α count (bytes.drop (width α))

@[simp] theorem length_decodeList {α : Type} [Packed α] (count : Nat) (bytes : Bytes) :
    (decodeList α count bytes).length = count := by
  induction count generalizing bytes with
  | zero => rfl
  | succ count induction => rw [decodeList, List.length_cons, induction]

def encodeList {α : Type} [Packed α] (values : List α) : Bytes := values.flatMap encode

@[simp] theorem length_encodeList {α : Type} [Packed α] (values : List α) :
    (encodeList values).length = values.length * width α := by
  induction values with
  | nil => simp [encodeList]
  | cons value values induction =>
      simp only [encodeList, List.flatMap_cons, List.length_append, length_encode,
        List.length_cons] at induction ⊢
      rw [induction, Nat.add_mul, Nat.one_mul, Nat.add_comm]

theorem decodeList_encodeList {α : Type} [Packed α] (values : List α) (rest : Bytes) :
    decodeList α values.length (encodeList values ++ rest) = values := by
  induction values with
  | nil => rfl
  | cons value values induction =>
      simp only [encodeList, List.flatMap_cons, List.length_cons, decodeList,
        List.append_assoc] at induction ⊢
      rw [List.take_append_of_le_length (by simp), List.drop_append_of_le_length (by simp),
        List.take_of_length_le (by simp), List.drop_eq_nil_of_le (by simp), decode_encode,
        List.nil_append, induction]

end Packed

end Letterform
