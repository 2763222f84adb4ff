import Letterform.Number.Shortest

/-!
Floating-point numbers as decimal text. The digits are always the shortest that
read back; a style says how they are laid out.
-/

namespace Letterform

namespace Decimal

def digitText (decimal : Decimal) : String := toString decimal.digits

def zeros (count : Nat) : String := "".pushn '0' count

/-- How many digits stand before the point, zero or negative when there are none: the `k`
of `0.d₁d₂… × 10 ^ k`. -/
def pointPosition (decimal : Decimal) : Int :=
  decimal.digitText.length + decimal.exponent

def positional (decimal : Decimal) : String :=
  let digits := decimal.digitText
  let point := decimal.pointPosition
  if point ≤ 0 then "0." ++ zeros (-point).toNat ++ digits
  else if digits.length ≤ point then digits ++ zeros (point - digits.length).toNat
  else String.ofList (digits.toList.take point.toNat) ++ "." ++
    String.ofList (digits.toList.drop point.toNat)

def scientific (decimal : Decimal) : String :=
  let power := decimal.pointPosition - 1
  let fraction := String.ofList (decimal.digitText.toList.drop 1)
  String.ofList (decimal.digitText.toList.take 1) ++
    (if fraction.isEmpty then "" else "." ++ fraction) ++ "e" ++
    (if power < 0 then "-" else "+") ++ toString power.natAbs

end Decimal

structure NumberStyle where
  tie : TieRule
  isPositional : Int → Bool
  nan : String
  infinity : String
  negativeInfinity : String

namespace NumberStyle

def plain : NumberStyle where
  tie := .up
  isPositional _ := true
  nan := "NaN"
  infinity := "inf"
  negativeInfinity := "-inf"

/-- JSON has no text for infinities and what is not a number. -/
def json : NumberStyle where
  tie := .even
  isPositional point := -4 ≤ point && point ≤ 16
  nan := "null"
  infinity := "null"
  negativeInfinity := "null"

def sign (negative : Bool) (text : String) : String := if negative then "-" ++ text else text

def magnitudeText (style : NumberStyle) (magnitude : Binary) : String :=
  if magnitude.mantissa = 0 then "0"
  else
    let decimal := Decimal.shortest style.tie magnitude
    if style.isPositional decimal.pointPosition then decimal.positional else decimal.scientific

def text (style : NumberStyle) (value : Float) : String :=
  match FloatValue.ofFloat value with
  | .nan => style.nan
  | .infinite negative => if negative then style.negativeInfinity else style.infinity
  | .finite negative magnitude => sign negative (style.magnitudeText magnitude)

end NumberStyle

end Letterform
