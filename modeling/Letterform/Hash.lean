import Letterform.Bytes

/-!
The 64-bit FNV-1a hash. Outlines are told apart by the hash of their compact text.
-/

namespace Letterform

def fnvOffsetBasis : UInt64 := 0xCBF29CE484222325

def fnvPrime : UInt64 := 0x100000001B3

def fnv1a (bytes : Bytes) : UInt64 :=
  bytes.foldl (fun hash byte => (hash ^^^ byte.toUInt64) * fnvPrime) fnvOffsetBasis

@[simp] theorem fnv1a_nil : fnv1a [] = 0xCBF29CE484222325 := rfl

theorem fnv1a_append_singleton (bytes : Bytes) (byte : UInt8) :
    fnv1a (bytes ++ [byte]) = (fnv1a bytes ^^^ byte.toUInt64) * 0x100000001B3 := by
  rw [fnv1a, List.foldl_append]
  rfl

example : fnv1a [0x61] = 0xAF63DC4C8601EC8C := by decide

end Letterform
