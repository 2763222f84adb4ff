/-!
Hexadecimal numerals. They are written with lower-case letters and read with letters of
either case.
-/

namespace Letterform

def hexText (value : Nat) : String := String.ofList (Nat.toDigits 16 value)

def hexPadded (width value : Nat) : String :=
  let digits := hexText value
  "".pushn '0' (width - digits.length) ++ digits

def hexDigit? (character : Char) : Option Nat :=
  if character.isDigit then some (character.toNat - 0x30)
  else if 'a' ≤ character ∧ character ≤ 'f' then some (character.toNat - 0x61 + 10)
  else if 'A' ≤ character ∧ character ≤ 'F' then some (character.toNat - 0x41 + 10)
  else none

def hexNumber? (digits : List Char) : Option Nat :=
  if digits.isEmpty then none
  else digits.foldlM (fun value character => do return 16 * value + (← hexDigit? character)) 0

end Letterform
