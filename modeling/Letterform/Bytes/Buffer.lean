import Letterform.Bytes.Packed

/-!
Buffers that are filled from front to back. A place in a buffer can be given a
label while it is written and be overwritten later, when what belongs there is
known.
-/

namespace Letterform

structure Buffer where
  bytes : Bytes := []
  labels : List (String × Nat) := []
  deriving DecidableEq, Repr

namespace Buffer

def append (buffer : Buffer) (bytes : Bytes) : Buffer :=
  { buffer with bytes := buffer.bytes ++ bytes }

def push {α : Type} [Packed α] (buffer : Buffer) (value : α) : Buffer :=
  buffer.append (Packed.encode value)

def extend {α : Type} [Packed α] (buffer : Buffer) (values : List α) : Buffer :=
  buffer.append (Packed.encodeList values)

def mark (buffer : Buffer) (label : String) : Buffer :=
  { buffer with labels := (label, buffer.bytes.length) :: buffer.labels }

def position? (buffer : Buffer) (label : String) : Option Nat := buffer.labels.lookup label

def overwrite? {α : Type} [Packed α] (buffer : Buffer) (label : String) (value : α) :
    Option Buffer := do
  let start ← buffer.position? label
  let stop := start + Packed.width α
  if buffer.bytes.length < stop then none
  else return { buffer with
    bytes := buffer.bytes.take start ++ Packed.encode value ++ buffer.bytes.drop stop }

end Buffer

end Letterform
