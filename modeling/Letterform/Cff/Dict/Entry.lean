import Letterform.Cff.Dict.Token

/-!
A DICT as a sequence of entries: an operator with the value of the operands in
front of it. Nothing follows a malformed token, but reading goes on after an
entry whose operands are missing or out of range.
-/

namespace Letterform.Cff.Dict

structure Entry where
  operator : Operator
  value : operator.shape.Value

def operandLimit : Nat := 48

def deltaLimit : Nat := 14

namespace Operands

def last (operands : List Number) : Except Fault Number :=
  match operands.getLast? with
  | some number => .ok number
  | none => .error .stackUnderflow

def get (operands : List Number) (position : Nat) : Except Fault Number :=
  match operands[position]? with
  | some number => .ok number
  | none => .error .stackUnderflow

def integer (operands : List Number) : Except Fault Int32 := do
  return (← last operands).toInt32

def real (operands : List Number) : Except Fault Float := do
  return (← last operands).toFloat

def offset (operands : List Number) : Except Fault Nat := do
  let value ← integer operands
  if value < 0 then throw (.read (.malformed .negativeOffset)) else return value.toInt.toNat

def range (operands : List Number) : Except Fault Range := do
  let length := (← get operands 0).toInt32
  let start := (← get operands 1).toInt32
  if length < 0 || start < 0 then throw (.read (.malformed .negativePrivateRange))
  else return ⟨start.toInt.toNat, start.toInt.toNat + length.toInt.toNat⟩

def vector (operands : List Number) (size : Nat) : Except Fault (Vector Float size) :=
  let numbers := (operands.take size).map Number.toFloat
  if exact : numbers.length = size then .ok ⟨numbers.toArray, by simp [exact]⟩
  else .error .stackUnderflow

def runningSums : (sum : Float) → List Float → List Float
  | _, [] => []
  | sum, delta :: deltas => (sum + delta) :: runningSums (sum + delta) deltas

def deltas (operands : List Number) : List Float :=
  runningSums 0 ((operands.take deltaLimit).map Number.toFloat)

def collection (operands : List Number) : Except Fault Collection := do
  let registry := (← get operands 0).toInt32
  let ordering := (← get operands 1).toInt32
  let supplement := (← get operands 2).toInt32
  return ⟨.ofInt32 registry, .ofInt32 ordering, supplement⟩

def value (operands : List Number) : (shape : Shape) → Except Fault shape.Value
  | .string => StringId.ofInt32 <$> integer operands
  | .integer => integer operands
  | .count => Int32.toUInt32 <$> integer operands
  | .real => real operands
  | .flag => (fun number => decide (number ≠ 0)) <$> integer operands
  | .offset => offset operands
  | .range => range operands
  | .box => vector operands 4
  | .matrix => vector operands 6
  | .deltas => .ok (deltas operands)
  | .collection => collection operands
  | .ignored => .ok ()

def push (operands : List Number) (number : Number) : List Number :=
  if operands.length < operandLimit then operands ++ [number] else operands

end Operands

def Entry.ofOperands (operator : Operator) (operands : List Number) : Except Fault Entry :=
  (Operands.value operands operator.shape).map fun value => ⟨operator, value⟩

def entriesFrom (operands : List Number) (cursor : Cursor) : List (Except Fault Entry) :=
  if _ended : cursor.rest = [] then []
  else match (Token.decoder.run cursor).1 with
    | .error fault => [.error fault]
    | .ok (.operand number) =>
        entriesFrom (Operands.push operands number) (Token.decoder.run cursor).2
    | .ok (.operator operator) =>
        Entry.ofOperands operator operands :: entriesFrom [] (Token.decoder.run cursor).2
termination_by cursor.rest.length
decreasing_by all_goals exact Token.decoder_consumes cursor ‹_›

def entries (bytes : Bytes) : List (Except Fault Entry) :=
  entriesFrom [] (Cursor.ofBytes bytes)

def collect {α : Type} (update : α → Entry → α) (start : α) (bytes : Bytes) : Except Fault α :=
  (entries bytes).foldlM (fun record entry => do return update record (← entry)) start

end Letterform.Cff.Dict
