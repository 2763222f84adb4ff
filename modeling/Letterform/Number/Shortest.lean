import Letterform.Number.Binary

/-!
The shortest decimal that reads back as a given binary number, and among those
the nearest. Reading rounds to the nearest number, so a decimal reads back when
it lies between the midpoints to the two neighbours; the midpoints themselves
count when the mantissa is even.
-/

namespace Letterform

attribute [local instance] naturalPower

structure Decimal where
  digits : Nat
  exponent : Int
  deriving DecidableEq, Repr

inductive TieRule
  | up
  | even
  deriving DecidableEq, Repr

namespace Decimal

/-- The decimals that read back, in quarters of the binary number's step. -/
structure Interval where
  lower : Nat
  value : Nat
  upper : Nat
  exponent : Int
  closed : Bool
  deriving DecidableEq, Repr

/-- Below a power of two the numbers are twice as dense, so the lower midpoint is
nearer. -/
def Interval.ofBinary (magnitude : Binary) : Interval where
  lower := 4 * magnitude.mantissa -
    (if magnitude.mantissa = 2 ^ (52 : Nat) ∧ -1074 < magnitude.exponent then 1 else 2)
  value := 4 * magnitude.mantissa
  upper := 4 * magnitude.mantissa + 2
  exponent := magnitude.exponent - 2
  closed := magnitude.mantissa % 2 = 0

/-! A grid holds the multiples of a power of ten. Both the grid and the interval
are brought to a common unit, in which all comparisons are between integers. -/

def Interval.unit (interval : Interval) (grid : Int) : Nat :=
  2 ^ interval.exponent.toNat * 10 ^ (-grid).toNat

def Interval.step (interval : Interval) (grid : Int) : Nat :=
  10 ^ grid.toNat * 2 ^ (-interval.exponent).toNat

def Interval.contains (interval : Interval) (grid : Int) (multiple : Nat) : Bool :=
  let point := multiple * interval.step grid
  let lower := interval.lower * interval.unit grid
  let upper := interval.upper * interval.unit grid
  if interval.closed then lower ≤ point && point ≤ upper else lower < point && point < upper

def Interval.nearest? (interval : Interval) (tie : TieRule) (grid : Int) : Option Nat :=
  let value := interval.value * interval.unit grid
  let step := interval.step grid
  let below := value / step
  match interval.contains grid below, interval.contains grid (below + 1) with
  | false, false => none
  | true, false => some below
  | false, true => some (below + 1)
  | true, true =>
      let remainder := 2 * (value % step)
      if remainder < step then some below
      else if step < remainder then some (below + 1)
      else match tie with
        | .up => some (below + 1)
        | .even => some (below + below % 2)

def Interval.search (interval : Interval) (tie : TieRule) : (grids : Nat) → (grid : Int) → Decimal
  | 0, grid => ⟨interval.value * interval.unit grid / interval.step grid, grid⟩
  | grids + 1, grid =>
      match interval.nearest? tie grid with
      | some digits => ⟨digits, grid⟩
      | none => interval.search tie grids (grid - 1)

/-- The shortest decimal of a positive binary number. Its bit length gives a power of ten
above it, and 17 digits below that always suffice. -/
def shortest (tie : TieRule) (magnitude : Binary) : Decimal :=
  let bits : Int := magnitude.mantissa.log2 + 1 + magnitude.exponent
  (Interval.ofBinary magnitude).search tie 20 (bits * 1233 / 4096 + 1)

end Decimal

end Letterform
