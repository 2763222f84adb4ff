import Letterform.Bytes.Packed

/-!
Fixed-point numbers: `Fixed` has 16 integer and 16 fraction bits, `F2Dot14` has
2 and 14. Sums, differences and products keep the low bits; quotients and
conversions from wider numbers stay at the nearest bound.
-/

namespace Letterform

def saturate32 (value : Int) : Int32 :=
  Int32.ofInt (max Int32.minValue.toInt (min value Int32.maxValue.toInt))

structure Fixed where
  bits : Int32
  deriving DecidableEq, Repr

namespace Fixed

instance : Packed Fixed :=
  Packed.through Fixed.bits Fixed.mk fun _ => rfl

def minimum : Fixed := ⟨Int32.minValue⟩
def maximum : Fixed := ⟨Int32.maxValue⟩
def epsilon : Fixed := ⟨1⟩
def zero : Fixed := ⟨0⟩
def one : Fixed := ⟨65536⟩

instance : Inhabited Fixed := ⟨zero⟩

instance : LT Fixed where
  lt first second := first.bits < second.bits

instance : DecidableLT Fixed := fun first second =>
  inferInstanceAs (Decidable (first.bits < second.bits))

instance : Add Fixed := ⟨fun first second => ⟨first.bits + second.bits⟩⟩
instance : Sub Fixed := ⟨fun first second => ⟨first.bits - second.bits⟩⟩
instance : Neg Fixed := ⟨fun value => ⟨-value.bits⟩⟩

def round (value : Fixed) : Fixed := ⟨(value.bits + 0x8000) &&& -0x10000⟩

def floor (value : Fixed) : Fixed := ⟨value.bits &&& -0x10000⟩

def fraction (value : Fixed) : Fixed := value - value.floor

def abs (value : Fixed) : Fixed := ⟨value.bits.abs⟩

/-- The product rounded to the nearest multiple of `2 ^ -16`, a half away from zero. -/
protected def mul (first second : Fixed) : Fixed :=
  let product := first.bits.toInt64 * second.bits.toInt64
  ⟨((product + 0x8000 - (if product < 0 then 1 else 0)) >>> 16).toInt32⟩

/-- The quotient rounded to the nearest multiple of `2 ^ -16`, a half away from zero. It
is kept within 31 bits, and a division by zero gives the bound on the dividend's side. -/
protected def div (first second : Fixed) : Fixed :=
  let dividend := first.bits.toInt64.abs
  let divisor := second.bits.toInt64.abs
  let bound : Int64 := 0x7FFFFFFF
  let quotient :=
    if divisor = 0 then bound else min (((dividend <<< 16) + (divisor >>> 1)) / divisor) bound
  let negative := (first.bits < 0) != (second.bits < 0)
  ⟨(if negative then -quotient else quotient).toInt32⟩

instance : Mul Fixed := ⟨Fixed.mul⟩
instance : Div Fixed := ⟨Fixed.div⟩

def ofInt32 (value : Int32) : Fixed := ⟨saturate32 (value.toInt * 65536)⟩

def toInt32 (value : Fixed) : Int32 := value.bits >>> 16

def roundToInt32 (value : Fixed) : Int32 := value.round.toInt32

def toFloat (value : Fixed) : Float := value.bits.toFloat / 65536

/-- The nearest value, a half away from zero; the bounds catch all that is
further out and zero stands for what is not a number. -/
def ofFloat (value : Float) : Fixed := ⟨(value * 65536).round.toInt32⟩

end Fixed

structure F2Dot14 where
  bits : Int16
  deriving DecidableEq, Repr

namespace F2Dot14

instance : Packed F2Dot14 :=
  Packed.through F2Dot14.bits F2Dot14.mk fun _ => rfl

def minimum : F2Dot14 := ⟨Int16.minValue⟩
def maximum : F2Dot14 := ⟨Int16.maxValue⟩
def epsilon : F2Dot14 := ⟨1⟩
def zero : F2Dot14 := ⟨0⟩
def one : F2Dot14 := ⟨16384⟩

instance : LT F2Dot14 where
  lt first second := first.bits < second.bits

instance : DecidableLT F2Dot14 := fun first second =>
  inferInstanceAs (Decidable (first.bits < second.bits))

instance : Add F2Dot14 := ⟨fun first second => ⟨first.bits + second.bits⟩⟩
instance : Sub F2Dot14 := ⟨fun first second => ⟨first.bits - second.bits⟩⟩
instance : Neg F2Dot14 := ⟨fun value => ⟨-value.bits⟩⟩

def round (value : F2Dot14) : F2Dot14 := ⟨(value.bits + 0x2000) &&& -0x4000⟩

def floor (value : F2Dot14) : F2Dot14 := ⟨value.bits &&& -0x4000⟩

def fraction (value : F2Dot14) : F2Dot14 := value - value.floor

def abs (value : F2Dot14) : F2Dot14 := ⟨value.bits.abs⟩

def toFloat (value : F2Dot14) : Float := value.bits.toFloat / 16384

def toFloat32 (value : F2Dot14) : Float32 := value.bits.toFloat32 / 16384

def ofFloat (value : Float) : F2Dot14 := ⟨(value * 16384).round.toInt16⟩

def ofFloat32 (value : Float32) : F2Dot14 := ⟨(value * 16384).round.toInt16⟩

def toFixed (value : F2Dot14) : Fixed := ⟨value.bits.toInt32 * 4⟩

end F2Dot14

end Letterform
