import Letterform.Bytes.Packed
import Letterform.Number.Hexadecimal

/-!
Four-byte table tags. Tags in a table directory may hold any bytes; a tag
written by a person is one to four printable characters, padded with spaces.
-/

namespace Letterform

structure Tag where
  code : UInt32
  deriving DecidableEq, Repr

namespace Tag

instance : Packed Tag := Packed.through code mk fun _ => rfl

instance : Ord Tag where
  compare first second := compare first.code second.code

def bytes (tag : Tag) : Bytes := Packed.encode tag

inductive Invalid
  | length (count : Nat)
  | byte (position : Nat) (value : UInt8)
  deriving DecidableEq, Repr

def isPrintable (byte : UInt8) : Bool := 0x20 ≤ byte && byte ≤ 0x7e

def upperHex (width value : Nat) : String := (hexPadded width value).toUpper

def Invalid.message : Invalid → String
  | .length count => s!"Invalid length ({count})"
  | .byte position value => s!"Invalid byte 0x{upperHex 1 value.toNat} at index {position}"

/-- The first byte that may not stand in a tag: one that is not printable, or
a leading space. -/
def firstInvalid? (bytes : Bytes) : Option (Nat × UInt8) :=
  bytes.zipIdx.findSome? fun (byte, position) =>
    if !isPrintable byte || (position = 0 && byte = 0x20) then some (position, byte) else none

def ofBytes (bytes : Bytes) : Except Invalid Tag :=
  if bytes.isEmpty || 4 < bytes.length then .error (.length bytes.length)
  else match firstInvalid? bytes with
    | some (position, byte) => .error (.byte position byte)
    | none => .ok (Packed.decode (bytes ++ List.replicate (4 - bytes.length) 0x20))

def ofString (text : String) : Except Invalid Tag := ofBytes text.toUTF8.toList

/-- A printable byte stands for itself and any other is written as `0xHH` in braces. -/
def byteText (byte : UInt8) : String :=
  if isPrintable byte then String.singleton (Char.ofNat byte.toNat)
  else "\x7b0x" ++ upperHex 2 byte.toNat ++ "\x7d"

def text (tag : Tag) : String := String.join (tag.bytes.map byteText)

/-! The tags of the tables that outlines are read from. -/

def head : Tag := ⟨0x68656164⟩
def hhea : Tag := ⟨0x68686561⟩
def maxp : Tag := ⟨0x6d617870⟩
def hmtx : Tag := ⟨0x686d7478⟩
def loca : Tag := ⟨0x6c6f6361⟩
def glyf : Tag := ⟨0x676c7966⟩
def cmap : Tag := ⟨0x636d6170⟩
def cff : Tag := ⟨0x43464620⟩

end Tag

end Letterform
