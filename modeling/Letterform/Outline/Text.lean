import Letterform.Number.DecimalText
import Letterform.Outline.Path

/-!
The texts of outlines. The compact text has lower-case letters and offsets from the
start of each step; it needs no space before a minus sign. The two forms of SVG path
data have capital letters and absolute coordinates.
-/

namespace Letterform

/-- Zero has no sign, and all other numbers have the fewest digits that read back. -/
def coordinateText (value : Float) : String :=
  if value == 0 then "0" else NumberStyle.plain.text value

def Point.coordinates {α : Type} (point : Point α) : List α := [point.x, point.y]

/-! Compact texts. -/

/-- A number after another one; a minus sign sets it apart, and otherwise a space does. -/
def nextNumber (number : List Char) : List Char :=
  if number.head? = some '-' then number else ' ' :: number

def joinNumbers : List (List Char) → List Char
  | [] => []
  | number :: numbers => number ++ numbers.flatMap nextNumber

namespace Step

def letter {α : Type} : Step α → Char
  | .move _ => 'm'
  | .line _ => 'l'
  | .quadratic _ _ => 'q'
  | .cubic _ _ _ => 'c'

def numerals (step : Step Float) : List String :=
  (step.points.flatMap Point.coordinates).map coordinateText

def compactChars (step : Step Float) : List Char :=
  step.letter :: joinNumbers (step.numerals.map String.toList)

end Step

def Outline.compactText (outline : Outline Float) : String :=
  String.ofList (outline.flatMap Step.compactChars)

/-! SVG path data. -/

def PathElement.letter {α : Type} : PathElement α → String
  | .move _ => "M"
  | .line _ => "L"
  | .quadratic _ _ => "Q"
  | .cubic _ _ _ => "C"
  | .close => "Z"

def Path.spacedText (path : Path Float) : String :=
  String.join (path.flatMap fun element =>
    (element.letter :: (element.points.flatMap Point.coordinates).map coordinateText).map
      (· ++ " "))

def Outline.absoluteText (outline : Outline Float) (position : Point Float) : String :=
  (outline.elements position).spacedText

def pairText (point : Point Float) : String :=
  coordinateText point.x ++ "," ++ coordinateText point.y

def PathElement.pairedText (element : PathElement Float) : String :=
  element.letter ++ " ".intercalate (element.points.map pairText)

def Path.pairedText (path : Path Float) : String :=
  " ".intercalate (path.map PathElement.pairedText)

end Letterform
