import Letterform.Number.Power

/-!
Floating-point numbers as exact binary numbers: a mantissa times a power of two.
A `Format` fixes how wide the mantissa is and where the exponents end.
-/

namespace Letterform

attribute [local instance] naturalPower

structure Binary where
  mantissa : Nat
  exponent : Int
  deriving DecidableEq, Repr

namespace Binary

structure Format where
  precision : Nat
  leastExponent : Int
  greatestExponent : Int
  deriving DecidableEq, Repr

def double : Format := ⟨53, -1074, 971⟩

def single : Format := ⟨24, -149, 104⟩

def nearestEven (numerator denominator : Nat) : Nat :=
  let quotient := numerator / denominator
  let remainder := numerator % denominator
  if 2 * remainder < denominator then quotient
  else if denominator < 2 * remainder then quotient + 1
  else quotient + quotient % 2

def scaledNearest (numerator denominator : Nat) (exponent : Int) : Nat :=
  nearestEven (numerator * 2 ^ (-exponent).toNat) (denominator * 2 ^ exponent.toNat)

def scaleOf (format : Format) (numerator denominator : Nat) : Int :=
  let estimate : Int := numerator.log2 - denominator.log2 - format.precision
  let exponent := max estimate format.leastExponent
  if scaledNearest numerator denominator exponent < 2 ^ format.precision then exponent
  else exponent + 1

/-- The nearest number of a format to a quotient, a half going to the even mantissa;
`none` when that is infinite. -/
def ofRatio? (format : Format) (numerator denominator : Nat) : Option Binary :=
  let exponent := scaleOf format numerator denominator
  let mantissa := scaledNearest numerator denominator exponent
  if mantissa = 2 ^ format.precision then
    if exponent < format.greatestExponent then some ⟨2 ^ (format.precision - 1), exponent + 1⟩
    else none
  else if exponent ≤ format.greatestExponent then some ⟨mantissa, exponent⟩
  else none

end Binary

inductive FloatValue
  | nan
  | infinite (negative : Bool)
  | finite (negative : Bool) (magnitude : Binary)
  deriving DecidableEq, Repr

namespace FloatValue

def ofFloat (value : Float) : FloatValue :=
  let bits := value.toBits.toNat
  let negative := bits / 2 ^ (63 : Nat) = 1
  let field : Nat := bits / 2 ^ (52 : Nat) % 2 ^ (11 : Nat)
  let fraction : Nat := bits % 2 ^ (52 : Nat)
  if field = 2047 then (if fraction = 0 then .infinite negative else .nan)
  else if field = 0 then .finite negative ⟨fraction, -1074⟩
  else .finite negative ⟨2 ^ (52 : Nat) + fraction, (field : Int) - 1075⟩

def magnitudeBits (format : Binary.Format) (magnitude : Binary) : Nat :=
  let hidden := 2 ^ (format.precision - 1)
  if magnitude.mantissa < hidden then magnitude.mantissa
  else (magnitude.exponent - format.leastExponent + 1).toNat * hidden +
    (magnitude.mantissa - hidden)

def infinityBits (format : Binary.Format) : Nat :=
  (format.greatestExponent - format.leastExponent + 2).toNat * 2 ^ (format.precision - 1)

def ratioBits (format : Binary.Format) (numerator denominator : Nat) : Nat :=
  match Binary.ofRatio? format numerator denominator with
  | some magnitude => magnitudeBits format magnitude
  | none => infinityBits format

end FloatValue

end Letterform
