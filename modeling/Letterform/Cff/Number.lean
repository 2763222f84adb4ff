import Letterform.Cff.Fault
import Letterform.Number.DecimalReading
import Letterform.Number.DecimalText

/-!
Numbers in DICTs and charstrings. The first byte of a number says how it is
encoded: integers take one, two, three or five bytes, and a real is packed text,
two characters to a byte.
-/

namespace Letterform.Cff

inductive Number
  | integer (value : Int32)
  | real (value : Float)

namespace Number

def toFloat : Number → Float
  | .integer value => value.toFloat
  | .real value => value

def toInt32 : Number → Int32
  | .integer value => value
  | .real value => value.floor.toInt32

def text : Number → String
  | .integer value => toString value.toInt
  | .real value => NumberStyle.plain.text value

/-! Integers. -/

def integerAfter (first : UInt8) : Decoder Fault Int32 :=
  let lead : Int := first.toNat
  if 32 ≤ lead ∧ lead ≤ 246 then pure (Int32.ofInt (lead - 139))
  else if 247 ≤ lead ∧ lead ≤ 250 then do
    let low : UInt8 ← Decoder.read UInt8
    return Int32.ofInt ((lead - 247) * 256 + low.toNat + 108)
  else if 251 ≤ lead ∧ lead ≤ 254 then do
    let low : UInt8 ← Decoder.read UInt8
    return Int32.ofInt (-(lead - 251) * 256 - low.toNat - 108)
  else if lead = 28 then do
    let value : Int16 ← Decoder.read Int16
    return value.toInt32
  else if lead = 29 then Decoder.read Int32
  else Decoder.fail .invalidNumber

def encodeLong (value : Int32) : Bytes := 29 :: Packed.encode value

def encodeInteger (value : Int32) : Bytes :=
  let number := value.toInt
  if -107 ≤ number ∧ number ≤ 107 then [UInt8.ofNat (number + 139).toNat]
  else if 108 ≤ number ∧ number ≤ 1131 then
    let offset := (number - 108).toNat
    [UInt8.ofNat (offset / 256 + 247), UInt8.ofNat (offset % 256)]
  else if -1131 ≤ number ∧ number ≤ -108 then
    let offset := (-number - 108).toNat
    [UInt8.ofNat (offset / 256 + 251), UInt8.ofNat (offset % 256)]
  else if -32768 ≤ number ∧ number ≤ 32767 then 28 :: Packed.encode value.toInt16
  else encodeLong value

/-! Reals. A half byte stands for a digit, a point, a minus sign, or the mark of
a power of ten with or without a minus sign. -/

def textLimit : Nat := 64

def halfByteText? (half : Nat) : Option (List Char) :=
  if half ≤ 9 then some [Char.ofNat ('0'.toNat + half)]
  else if half = 10 then some ['.']
  else if half = 11 then some ['E']
  else if half = 12 then some ['E', '-']
  else if half = 14 then some ['-']
  else none

def terminator : Nat := 15

def addHalfByte (text : List Char) (half : Nat) : Except Fault (List Char × Bool) :=
  if half = terminator then .ok (text, true)
  else match halfByteText? half with
    | none => .error .invalidNumber
    | some piece =>
        if textLimit < text.length + piece.length then .error .invalidNumber
        else .ok (text ++ piece, false)

def addByte (text : List Char) (byte : UInt8) : Except Fault (List Char × Bool) := do
  let (text, complete) ← addHalfByte text (byte.toNat / 16)
  if complete then return (text, true) else addHalfByte text (byte.toNat % 16)

/-- Reads packed text. The bytes are counted down from one more than the longest text
fills, so the count never runs out before the text does. -/
def realText : (bytes : Nat) → (text : List Char) → Decoder Fault (List Char)
  | 0, _ => Decoder.fail .invalidNumber
  | bytes + 1, text => do
      let byte : UInt8 ← Decoder.read UInt8
      let (text, complete) ← Decoder.ofExcept (addByte text byte)
      if complete then return text else realText bytes text

def readReal : Decoder Fault Float := do
  let text ← realText (textLimit / 2 + 1) []
  match Decimal.Numeral.ofChars? text with
  | some numeral => return numeral.toFloat
  | none => Decoder.fail .invalidNumber

def halfBytes : List Char → List Nat
  | [] => []
  | 'E' :: '-' :: rest => 12 :: halfBytes rest
  | 'E' :: rest => 11 :: halfBytes rest
  | '.' :: rest => 10 :: halfBytes rest
  | '-' :: rest => 14 :: halfBytes rest
  | digit :: rest =>
      if digit.isDigit then (digit.toNat - '0'.toNat) :: halfBytes rest else halfBytes rest

def packHalfBytes : List Nat → Bytes
  | first :: second :: rest => UInt8.ofNat (16 * first + second) :: packHalfBytes rest
  | [last] => [UInt8.ofNat (16 * last + terminator)]
  | [] => []

def encodeReal (text : List Char) : Bytes :=
  30 :: packHalfBytes (halfBytes text ++ [terminator])

/-! A number of either kind. -/

def after (first : UInt8) : Decoder Fault Number :=
  if first = 30 then .real <$> readReal else .integer <$> integerAfter first

def decoder : Decoder Fault Number := do
  let first : UInt8 ← Decoder.read UInt8
  after first

end Number

end Letterform.Cff
