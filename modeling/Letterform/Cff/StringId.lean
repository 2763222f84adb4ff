import Letterform.Bytes
import Letterform.Cff.StandardStrings

/-!
Strings of a CFF font. An identifier below 391 names a standard string and any
other one an entry of the font's own string INDEX. A string has one byte for each
character, the first 256 characters of Unicode.
-/

namespace Letterform.Cff

def standardStringCount : Nat := 391

theorem size_standardStrings : standardStrings.size = standardStringCount := by decide +kernel

structure StringId where
  value : UInt16
  deriving DecidableEq, Repr

namespace StringId

def ofInt32 (value : Int32) : StringId := ⟨value.toUInt32.toUInt16⟩

end StringId

structure Latin1 where
  bytes : Bytes
  deriving DecidableEq, Repr

namespace Latin1

def chars (string : Latin1) : List Char :=
  string.bytes.map fun byte => Char.ofNat byte.toNat

def text (string : Latin1) : String := String.ofList string.chars

def ofString (text : String) : Latin1 := ⟨text.toList.map fun char => UInt8.ofNat char.toNat⟩

end Latin1

inductive StringSource
  | standard (name : String)
  | font (entry : Nat)
  deriving DecidableEq, Repr

def StringId.source (id : StringId) : StringSource :=
  match standardStrings[id.value.toNat]? with
  | some name => .standard name
  | none => .font (id.value.toNat - standardStringCount)

end Letterform.Cff
