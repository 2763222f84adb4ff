import Letterform.Cff.Dict.Operator

/-!
A DICT as a sequence of tokens: operands, each group followed by its operator.
Reading goes on after a token that is at fault, from wherever that left off.
-/

namespace Letterform.Cff.Dict

inductive Token
  | operator (operator : Operator)
  | operand (number : Number)

namespace Token

def escape : UInt8 := 12

def operatorOf (operator : Option Operator) (opcode : UInt8) : Decoder Fault Token :=
  match operator with
  | some known => pure (Token.operator known)
  | none => Decoder.fail (.dictOperator opcode)

def after (first : UInt8) : Decoder Fault Token :=
  if first = escape then do
    let second : UInt8 ← Decoder.read UInt8
    operatorOf (Operator.ofEscapedOpcode? second) second
  else if first ≤ 21 then operatorOf (Operator.ofOpcode? first) first
  else Token.operand <$> Number.after first

def decoder : Decoder Fault Token := do
  let first : UInt8 ← Decoder.read UInt8
  after first

theorem decoder_consumes : decoder.Consumes :=
  Decoder.Consumes.bind (Decoder.Consumes.mapFault Decoder.Consumes.read _) _

end Token

def tokensFrom (cursor : Cursor) : List (Except Fault Token) :=
  if _ended : cursor.rest = [] then []
  else (Token.decoder.run cursor).1 :: tokensFrom (Token.decoder.run cursor).2
termination_by cursor.rest.length
decreasing_by exact Token.decoder_consumes cursor ‹_›

def tokens (bytes : Bytes) : List (Except Fault Token) := tokensFrom (Cursor.ofBytes bytes)

/-! Encoding. -/

inductive Item
  | integer (value : Int32)
  /-- An integer in five bytes, which can be replaced without moving what follows. -/
  | long (value : Int32)
  | real (text : String)
  | operator (opcode : UInt8)
  | escaped (opcode : UInt8)
  deriving DecidableEq, Repr

def Item.encode : Item → Bytes
  | .integer value => Number.encodeInteger value
  | .long value => Number.encodeLong value
  | .real text => Number.encodeReal text.toList
  | .operator opcode => [opcode]
  | .escaped opcode => [Token.escape, opcode]

def encode (items : List Item) : Bytes := items.flatMap Item.encode

end Letterform.Cff.Dict
