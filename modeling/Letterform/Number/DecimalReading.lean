import Letterform.Number.Binary

/-!
Reading decimal text. A number is an optional sign, digits with an optional
point among them, and an optional power of ten; there is at least one digit
before the power. The value is the nearest floating-point number.
-/

namespace Letterform

attribute [local instance] naturalPower

namespace Decimal

structure Numeral where
  negative : Bool
  digits : Nat
  exponent : Int
  deriving DecidableEq, Repr

def digitsValue (digits : List Char) : Nat :=
  digits.foldl (fun value digit => 10 * value + (digit.toNat - '0'.toNat)) 0

def splitSign : List Char → Bool × List Char
  | '-' :: rest => (true, rest)
  | '+' :: rest => (false, rest)
  | rest => (false, rest)

def splitFraction : List Char → List Char × List Char
  | '.' :: rest => (rest.takeWhile Char.isDigit, rest.dropWhile Char.isDigit)
  | rest => ([], rest)

def power? : List Char → Option Int
  | [] => some 0
  | mark :: rest =>
      let (negative, digits) := splitSign rest
      if (mark = 'e' || mark = 'E') && !digits.isEmpty && digits.all Char.isDigit then
        some (if negative then -(digitsValue digits : Int) else digitsValue digits)
      else none

def Numeral.ofChars? (text : List Char) : Option Numeral := do
  let (negative, unsigned) := splitSign text
  let whole := unsigned.takeWhile Char.isDigit
  let (fraction, rest) := splitFraction (unsigned.dropWhile Char.isDigit)
  guard (!(whole.isEmpty && fraction.isEmpty))
  let power ← power? rest
  return ⟨negative, digitsValue (whole ++ fraction), power - fraction.length⟩

/-- The bits of the nearest number. Past 400 places on either side of the point only the
side matters, so the power of ten is kept that small. -/
def Numeral.magnitudeBits (format : Binary.Format) (numeral : Numeral) : Nat :=
  let places : Int := (Nat.toDigits 10 numeral.digits).length
  if numeral.digits = 0 then 0
  else if 400 < places + numeral.exponent then FloatValue.infinityBits format
  else if places + numeral.exponent < -400 then 0
  else FloatValue.ratioBits format (numeral.digits * 10 ^ numeral.exponent.toNat)
    (10 ^ (-numeral.exponent).toNat)

def Numeral.toFloat (numeral : Numeral) : Float :=
  let magnitude := Float.ofBits (UInt64.ofNat (numeral.magnitudeBits Binary.double))
  if numeral.negative then -magnitude else magnitude

def Numeral.toFloat32 (numeral : Numeral) : Float32 :=
  let magnitude := Float32.ofBits (UInt32.ofNat (numeral.magnitudeBits Binary.single))
  if numeral.negative then -magnitude else magnitude

end Decimal

end Letterform
