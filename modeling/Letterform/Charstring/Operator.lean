import Letterform.Cff.Number
import Letterform.Charstring.Stack

/-!
The operators of Type 2 charstrings by what they act on, and charstrings as
sequences of operands and operators. The bytes of a hint mask are not tokens; the
mask operator takes them from the charstring itself.
-/

namespace Letterform.Charstring

open Cff (Fault Number)

inductive Axis
  | horizontal
  | vertical
  deriving DecidableEq, Repr

def Axis.other : Axis → Axis
  | .horizontal => .vertical
  | .vertical => .horizontal

inductive MoveOperator
  | both
  | along (axis : Axis)
  deriving DecidableEq, Repr

inductive PathOperator
  | lines
  | alternatingLines (axis : Axis)
  | curves
  | curvesThenLine
  | linesThenCurve
  | straightCurves (axis : Axis)
  | turningCurves (axis : Axis)
  | flex
  | flexHorizontal
  | flexHorizontalShort
  | flexShort
  deriving DecidableEq, Repr

inductive MaskKind
  | hint
  | counter
  deriving DecidableEq, Repr

inductive SubroutineScope
  | globals
  | locals
  deriving DecidableEq, Repr

inductive ArithmeticOperator
  | and | or | not | equal | abs | negate | add | subtract | multiply | divide
  | squareRoot | drop | duplicate | exchange | put | get | random
  deriving DecidableEq, Repr

inductive IgnoredOperator
  | ifElse
  | index
  | roll
  deriving DecidableEq, Repr

inductive Operator
  | stems (axis : Axis)
  | mask (kind : MaskKind)
  | move (operator : MoveOperator)
  | path (operator : PathOperator)
  | call (scope : SubroutineScope)
  | return
  | endCharacter
  | arithmetic (operator : ArithmeticOperator)
  | ignored (operator : IgnoredOperator)
  deriving DecidableEq, Repr

namespace Operator

def ofOpcode? (opcode : UInt8) : Option Operator :=
  match opcode.toNat with
  | 1 | 18 => some (.stems .horizontal)
  | 3 | 23 => some (.stems .vertical)
  | 4 => some (.move (.along .vertical))
  | 5 => some (.path .lines)
  | 6 => some (.path (.alternatingLines .horizontal))
  | 7 => some (.path (.alternatingLines .vertical))
  | 8 => some (.path .curves)
  | 10 => some (.call .locals)
  | 11 => some .return
  | 14 => some .endCharacter
  | 19 => some (.mask .hint)
  | 20 => some (.mask .counter)
  | 21 => some (.move .both)
  | 22 => some (.move (.along .horizontal))
  | 24 => some (.path .curvesThenLine)
  | 25 => some (.path .linesThenCurve)
  | 26 => some (.path (.straightCurves .vertical))
  | 27 => some (.path (.straightCurves .horizontal))
  | 29 => some (.call .globals)
  | 30 => some (.path (.turningCurves .vertical))
  | 31 => some (.path (.turningCurves .horizontal))
  | _ => none

def ofEscapedOpcode? (opcode : UInt8) : Option Operator :=
  match opcode.toNat with
  | 3 => some (.arithmetic .and)
  | 4 => some (.arithmetic .or)
  | 5 => some (.arithmetic .not)
  | 9 => some (.arithmetic .abs)
  | 10 => some (.arithmetic .add)
  | 11 => some (.arithmetic .subtract)
  | 12 => some (.arithmetic .divide)
  | 14 => some (.arithmetic .negate)
  | 15 => some (.arithmetic .equal)
  | 18 => some (.arithmetic .drop)
  | 20 => some (.arithmetic .put)
  | 21 => some (.arithmetic .get)
  | 22 => some (.ignored .ifElse)
  | 23 => some (.arithmetic .random)
  | 24 => some (.arithmetic .multiply)
  | 26 => some (.arithmetic .squareRoot)
  | 27 => some (.arithmetic .duplicate)
  | 28 => some (.arithmetic .exchange)
  | 29 => some (.ignored .index)
  | 30 => some (.ignored .roll)
  | 34 => some (.path .flexHorizontal)
  | 35 => some (.path .flex)
  | 36 => some (.path .flexHorizontalShort)
  | 37 => some (.path .flexShort)
  | _ => none

end Operator

inductive Token
  | operand (operand : Operand)
  | operator (operator : Operator)
  deriving DecidableEq, Repr

namespace Token

def escape : UInt8 := 12

def operatorOf (operator : Option Operator) (opcode : UInt8) : Decoder Fault Token :=
  match operator with
  | some known => pure (Token.operator known)
  | none => Decoder.fail (.charstringOperator opcode)

def after (first : UInt8) : Decoder Fault Token :=
  if first = 255 then do
    let value : Fixed ← Decoder.read Fixed
    return .operand (.fixed value)
  else if first = 28 || 32 ≤ first then
    (fun value => .operand (.integer value)) <$> Number.integerAfter first
  else if first = escape then do
    let second : UInt8 ← Decoder.read UInt8
    operatorOf (Operator.ofEscapedOpcode? second) second
  else operatorOf (Operator.ofOpcode? first) first

def decoder : Decoder Fault Token := do
  let first : UInt8 ← Decoder.read UInt8
  after first

theorem decoder_consumes : decoder.Consumes :=
  Decoder.Consumes.bind (Decoder.Consumes.mapFault Decoder.Consumes.read _) _

end Token

/-! Encoding. -/

inductive Item
  | integer (value : Int32)
  | fixed (value : Fixed)
  | operator (opcode : UInt8)
  | escaped (opcode : UInt8)
  | byte (value : UInt8)
  deriving DecidableEq, Repr

def Item.encode : Item → Bytes
  | .integer value => Number.encodeInteger value
  | .fixed value => 255 :: Packed.encode value
  | .operator opcode => [opcode]
  | .escaped opcode => [Token.escape, opcode]
  | .byte value => [value]

def encode (items : List Item) : Bytes := items.flatMap Item.encode

end Letterform.Charstring
