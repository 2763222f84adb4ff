import Letterform.Cff.Number

/-!
An INDEX: an array of byte strings of any lengths. It holds a count, the size of
an offset, one offset more than there are objects, and the objects. Offsets
count from the byte before the objects, so the first one is 1. An empty INDEX is
its count alone.
-/

namespace Letterform.Cff

structure Index where
  count : UInt16
  offsetSize : UInt8
  offsets : Bytes
  objects : Bytes
  deriving DecidableEq, Repr

namespace Index

def empty : Index := ⟨0, 0, [], []⟩

instance : Inhabited Index := ⟨empty⟩

def size (index : Index) : Nat := index.count.toNat

def decoder : Decoder Fault Index := do
  let count : UInt16 ← Decoder.read UInt16
  if count = 0 then return empty
  let offsetSize : UInt8 ← Decoder.read UInt8
  if offsetSize < 1 || 4 < offsetSize then Decoder.fail (.offsetSize offsetSize)
  else
    let offsets : Bytes ← Decoder.readList UInt8 ((count.toNat + 1) * offsetSize.toNat)
    let objects ← Decoder.rest
    return ⟨count, offsetSize, offsets, objects⟩

def ofBytes (bytes : Bytes) : Except Fault Index := decoder.decode bytes

def offset (index : Index) (position : Nat) : Except Fault Nat :=
  let start := position * index.offsetSize.toNat
  if index.size < position then .error (.outOfBounds start)
  else if index.offsetSize < 1 || 4 < index.offsetSize then
    .error (.offsetSize index.offsetSize)
  else match Bytes.splitAt? index.offsetSize.toNat (index.offsets.drop start) with
    | none => .error (.outOfBounds start)
    | some (bytes, _) =>
        if bytes.number = 0 then .error .zeroOffset else .ok (bytes.number - 1)

def get (index : Index) (position : Nat) : Except Fault Bytes := do
  let start ← index.offset position
  let stop ← index.offset (position + 1)
  match index.objects.slice? start stop with
  | some object => return object
  | none => throw (.outOfBounds start)

theorem length_get {index : Index} {position : Nat} {object : Bytes}
    (equal : index.get position = .ok object) : object.length ≤ index.objects.length := by
  simp only [get, bind, Except.bind] at equal
  split at equal
  · cases equal
  · split at equal
    · cases equal
    · split at equal
      · next part =>
          cases equal
          simp only [Bytes.slice?] at part
          split at part
          · cases part
            simp only [List.length_take, List.length_drop]
            omega
          · cases part
      · cases equal

def toList (index : Index) : List (Except Fault Bytes) :=
  (List.range index.size).map index.get

def byteLength (index : Index) : Except Fault Nat :=
  if index.size = 0 then .ok 2
  else return 3 + index.offsets.length + (← index.offset index.size)

/-! Encoding. -/

def boundaries : (start : Nat) → List Bytes → List Nat
  | start, [] => [start]
  | start, object :: objects => start :: boundaries (start + object.length) objects

def offsetSizeFor (last : Nat) : Nat :=
  if last ≤ 0xFF then 1 else if last ≤ 0xFFFF then 2 else if last ≤ 0xFFFFFF then 3 else 4

def encodeWith (offsetSize : Nat) (objects : List Bytes) : Bytes :=
  if objects.isEmpty then [0, 0]
  else Bytes.ofNumber 2 objects.length ++ UInt8.ofNat offsetSize ::
    ((boundaries 1 objects).flatMap (Bytes.ofNumber offsetSize) ++ objects.flatten)

def encode (objects : List Bytes) : Bytes :=
  encodeWith (offsetSizeFor (1 + objects.flatten.length)) objects

/-! Subroutine numbers are stored less a bias that grows with the INDEX. -/

def subroutineBias (count : Nat) (charstringType : Int32) : Int32 :=
  if charstringType = 1 then 0
  else if count < 1240 then 107
  else if count < 33900 then 1131
  else 32768

end Index

end Letterform.Cff
