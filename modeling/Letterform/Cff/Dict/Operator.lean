import Letterform.Cff.Number
import Letterform.Cff.StringId

/-!
The operators of a DICT. Each has an opcode of one byte, or of two with an escape
in front, and a shape: what its operands mean.
-/

namespace Letterform.Cff.Dict

inductive Operator
  | version | notice | fullName | familyName | weight | fontBox | charstringsOffset
  | privateRange | copyright | isFixedPitch | italicAngle | underlinePosition
  | underlineThickness | paintType | charstringType | fontMatrix | strokeWidth
  | fontArrayOffset | fontSelectOffset | blueValues | otherBlues | familyBlues
  | familyOtherBlues | subroutinesOffset | blueScale | blueShift | blueFuzz | languageGroup
  | expansionFactor | encoding | charset | uniqueId | extendedUniqueId | syntheticBase
  | postScript | baseFontName | baseFontBlend | registryOrderingSupplement | cidFontVersion
  | cidFontRevision | cidFontType | cidCount | uidBase | fontName | standardHorizontalWidth
  | standardVerticalWidth | defaultWidth | nominalWidth | stemSnapHorizontal
  | stemSnapVertical | forceBold | initialRandomSeed
  deriving DecidableEq, Repr

namespace Operator

def ofOpcode? (opcode : UInt8) : Option Operator :=
  match opcode.toNat with
  | 0 => some .version
  | 1 => some .notice
  | 2 => some .fullName
  | 3 => some .familyName
  | 4 => some .weight
  | 5 => some .fontBox
  | 6 => some .blueValues
  | 7 => some .otherBlues
  | 8 => some .familyBlues
  | 9 => some .familyOtherBlues
  | 10 => some .standardHorizontalWidth
  | 11 => some .standardVerticalWidth
  | 13 => some .uniqueId
  | 14 => some .extendedUniqueId
  | 15 => some .charset
  | 16 => some .encoding
  | 17 => some .charstringsOffset
  | 18 => some .privateRange
  | 19 => some .subroutinesOffset
  | 20 => some .defaultWidth
  | 21 => some .nominalWidth
  | _ => none

def ofEscapedOpcode? (opcode : UInt8) : Option Operator :=
  match opcode.toNat with
  | 0 => some .copyright
  | 1 => some .isFixedPitch
  | 2 => some .italicAngle
  | 3 => some .underlinePosition
  | 4 => some .underlineThickness
  | 5 => some .paintType
  | 6 => some .charstringType
  | 7 => some .fontMatrix
  | 8 => some .strokeWidth
  | 9 => some .blueScale
  | 10 => some .blueShift
  | 11 => some .blueFuzz
  | 12 => some .stemSnapHorizontal
  | 13 => some .stemSnapVertical
  | 14 => some .forceBold
  | 17 => some .languageGroup
  | 18 => some .expansionFactor
  | 19 => some .initialRandomSeed
  | 20 => some .syntheticBase
  | 21 => some .postScript
  | 22 => some .baseFontName
  | 23 => some .baseFontBlend
  | 30 => some .registryOrderingSupplement
  | 31 => some .cidFontVersion
  | 32 => some .cidFontRevision
  | 33 => some .cidFontType
  | 34 => some .cidCount
  | 35 => some .uidBase
  | 36 => some .fontArrayOffset
  | 37 => some .fontSelectOffset
  | 38 => some .fontName
  | _ => none

end Operator

/-! Shapes of operands, and the values they denote. -/

inductive Shape
  | string | integer | count | real | flag | offset | range | box | matrix | deltas
  | collection | ignored
  deriving DecidableEq, Repr

structure Collection where
  registry : StringId
  ordering : StringId
  supplement : Int32
  deriving DecidableEq, Repr

structure Range where
  start : Nat
  stop : Nat
  deriving DecidableEq, Repr

@[reducible] def Shape.Value : Shape → Type
  | .string => StringId
  | .integer => Int32
  | .count => UInt32
  | .real => Float
  | .flag => Bool
  | .offset => Nat
  | .range => Range
  | .box => Vector Float 4
  | .matrix => Vector Float 6
  | .deltas => List Float
  | .collection => Collection
  | .ignored => Unit

@[reducible] def Operator.shape : Operator → Shape
  | .version | .notice | .copyright | .fullName | .familyName | .weight | .postScript
  | .baseFontName | .fontName => .string
  | .fontBox => .box
  | .fontMatrix => .matrix
  | .privateRange => .range
  | .charstringsOffset | .fontArrayOffset | .fontSelectOffset | .subroutinesOffset
  | .encoding | .charset => .offset
  | .isFixedPitch | .forceBold => .flag
  | .italicAngle | .underlinePosition | .underlineThickness | .strokeWidth | .blueScale
  | .blueShift | .blueFuzz | .expansionFactor | .cidFontVersion | .cidFontRevision
  | .standardHorizontalWidth | .standardVerticalWidth | .defaultWidth | .nominalWidth => .real
  | .paintType | .charstringType | .languageGroup | .uniqueId | .syntheticBase
  | .cidFontType | .uidBase | .initialRandomSeed => .integer
  | .cidCount => .count
  | .blueValues | .otherBlues | .familyBlues | .familyOtherBlues | .stemSnapHorizontal
  | .stemSnapVertical => .deltas
  | .registryOrderingSupplement => .collection
  | .extendedUniqueId | .baseFontBlend => .ignored

end Letterform.Cff.Dict
