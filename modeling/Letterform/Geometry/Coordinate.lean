import Letterform.Number.Binary
import Letterform.Number.Fixed

/-!
What outlines need of a coordinate. Fonts are drawn in `Float`; the same
definitions over `Rat` describe the drawing in exact arithmetic.
-/

namespace Letterform

attribute [local instance] naturalPower

def Binary.toRat (negative : Bool) (magnitude : Binary) : Rat :=
  let numerator := magnitude.mantissa * 2 ^ magnitude.exponent.toNat
  mkRat (if negative then -numerator else numerator) (2 ^ (-magnitude.exponent).toNat)

/-- The integer that a number is rounded to, within 32 bits. What is not a number becomes zero. -/
def FloatValue.round32 (round : Rat → Int) : FloatValue → Int32
  | .nan => 0
  | .infinite negative => if negative then Int32.minValue else Int32.maxValue
  | .finite negative magnitude => saturate32 (round (magnitude.toRat negative))

class Coordinate (α : Type) extends Add α, Sub α, Mul α, Div α where
  ofInt : Int → α
  least : α → α → α
  greatest : α → α → α
  floor32 : α → Int32
  ceiling32 : α → Int32

namespace Coordinate

instance : Coordinate Float where
  ofInt := Float.ofInt
  least first second := if second < first || first.isNaN then second else first
  greatest first second := if first < second || first.isNaN then second else first
  floor32 value := (FloatValue.ofFloat value).round32 Rat.floor
  ceiling32 value := (FloatValue.ofFloat value).round32 Rat.ceil

instance : Coordinate Rat where
  ofInt value := value
  least first second := if second < first then second else first
  greatest first second := if first < second then second else first
  floor32 value := saturate32 value.floor
  ceiling32 value := saturate32 value.ceil

variable {α : Type} [Coordinate α]

def ofFixed (value : Fixed) : α := ofInt value.bits.toInt / ofInt 65536

def ofF2Dot14 (value : F2Dot14) : α := ofInt value.bits.toInt / ofInt 16384

end Coordinate

end Letterform
