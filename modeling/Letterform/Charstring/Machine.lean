import Letterform.Charstring.Drawing

/-!
The state of a charstring's evaluation and what the operators do to it, apart from
calls and returns. An operator that fails leaves behind what it has changed.
-/

namespace Letterform.Charstring

open Cff (Fault Number)

def storageSize : Nat := 32

def randomSeed : UInt32 := 0x2545F491

structure Machine where
  stack : Stack := .empty
  pen : Pen := {}
  isOpen : Bool := false
  widthIsSettled : Bool := false
  width : Option Fixed := none
  horizontalStems : Nat := 0
  verticalStems : Nat := 0
  ignored : List IgnoredOperator := []
  storage : Vector Number storageSize := Vector.replicate storageSize (.integer 0)
  random : UInt32 := randomSeed

abbrev Action := ExceptT Fault (StateM Machine)

namespace Action

def clearStack : Action Unit := modify fun machine => { machine with stack := .empty }

def onStack {α : Type} (operation : Stack → Except Fault (α × Stack)) : Action α := do
  let (value, stack) ← ExceptT.mk (pure (operation (← get).stack))
  modify fun machine => { machine with stack }
  return value

def push (number : Number) : Action Unit :=
  modify fun machine => { machine with stack := machine.stack.pushNumber number }

def popNumber : Action Number := do return (← onStack Stack.pop).toNumber

def popFloat : Action Float := do return (← popNumber).toFloat

def popInt32 : Action Int32 := do return (← onStack Stack.pop).toInt32

def draw (drawing : Drawing Unit) : Action Unit := ExceptT.mk fun machine =>
  let (result, pen) := drawing.run machine.pen
  (result, { machine with pen })

def emit (command : Command) : Action Unit := draw (Drawing.emit command)

/-! The width of a glyph may stand in front of the operands of the first operator
that clears the stack. Only that operator looks for it. -/

def settleWidth (isPresent : Bool) : Action Unit := do
  if !(← get).widthIsSettled then
    modify fun machine => { machine with widthIsSettled := true }
    if isPresent then
      let width ← onStack Stack.takeFirst
      modify fun machine => { machine with width := some width.toFixed }

/-! Stems. Each is given by its distance from the one before and its extent. -/

def stemEdges : (edge : Fixed) → List Fixed → List (Fixed × Fixed)
  | edge, distance :: extent :: rest =>
      (edge + distance, edge + distance + extent) ::
        stemEdges (edge + distance + extent) rest
  | _, _ => []

def countStems (axis : Axis) (count : Nat) (machine : Machine) : Machine :=
  match axis with
  | .horizontal => { machine with horizontalStems := machine.horizontalStems + count }
  | .vertical => { machine with verticalStems := machine.verticalStems + count }

def emitStems (axis : Axis) : List (Fixed × Fixed) → Action Unit
  | [] => pure ()
  | (start, stop) :: edges => do
      emit (.stem axis start stop)
      emitStems axis edges

def stems (axis : Axis) : Action Unit := do
  settleWidth (← get).stack.hasOddSize
  let stack := (← get).stack
  emitStems axis (stemEdges .zero stack.toFixedList)
  modify (countStems axis (stack.size / 2))
  clearStack

/-- A mask has a bit for every stem, and at least one byte. -/
def maskLength (machine : Machine) : Nat :=
  max 1 ((machine.horizontalStems + machine.verticalStems + 7) / 8)

/-! Subpaths. A move closes the one that is open and opens another. -/

def openSubpath : Action Unit := do
  if (← get).isOpen then emit .close
  else modify fun machine => { machine with isOpen := true }

def moveOperands : MoveOperator → Nat
  | .both => 2
  | .along _ => 1

def moveTarget (operator : MoveOperator) (operands : List Fixed) (start : Point Fixed) :
    Except Fault (Point Fixed) :=
  match operator, operands with
  | .both, dx :: dy :: _ => .ok (start + ⟨dx, dy⟩)
  | .along axis, distance :: _ => .ok (Drawing.along axis distance start)
  | _, _ => .error .stackUnderflow

def move (operator : MoveOperator) : Action Unit := do
  settleWidth ((← get).stack.size = moveOperands operator + 1)
  openSubpath
  let machine ← get
  let target ← ExceptT.mk
    (pure (moveTarget operator machine.stack.toFixedList machine.pen.position))
  draw (Drawing.moveTo target)
  clearStack

def path (operator : PathOperator) : Action Unit := do
  draw (Drawing.path (← get).stack.toFixedList operator)
  clearStack

def endCharacter : Action Unit := do
  let size := (← get).stack.size
  settleWidth (size = 1 || size = 5)
  if (← get).isOpen then
    modify fun machine => { machine with isOpen := false }
    emit .close
  clearStack

/-! Arithmetic. Integers stay integers as long as the result fits; otherwise, and
with a fixed-point operand, the result is computed in floating point. -/

def integerOr (exact : Int) (fallback : Float) : Number :=
  if (Int32.ofInt exact).toInt = exact then .integer (Int32.ofInt exact) else .real fallback

def ofBool (value : Bool) : Number := .integer (if value then 1 else 0)

def absolute : Number → Number
  | .integer value => integerOr value.toInt.natAbs value.toFloat.abs
  | .real value => .real value.abs

def negative : Number → Number
  | .integer value => integerOr (-value.toInt) (-value.toFloat)
  | .real value => .real (-value)

def combine (exact : Int → Int → Int) (inexact : Float → Float → Float)
    (first second : Number) : Number :=
  match first, second with
  | .integer first, .integer second =>
      integerOr (exact first.toInt second.toInt) (inexact first.toFloat second.toFloat)
  | _, _ => .real (inexact first.toFloat second.toFloat)

def quotient (dividend divisor : Number) : Number :=
  if divisor.toFloat == 0 then .integer 0
  else match dividend, divisor with
    | .integer first, .integer second =>
        if first.toInt.tmod second.toInt = 0 then
          integerOr (first.toInt.tdiv second.toInt) (first.toFloat / second.toFloat)
        else .real (first.toFloat / second.toFloat)
    | _, _ => .real (dividend.toFloat / divisor.toFloat)

def nextRandom (state : UInt32) : UInt32 :=
  let state := state ^^^ (state <<< 13)
  let state := state ^^^ (state >>> 17)
  state ^^^ (state <<< 5)

def randomFloat (state : UInt32) : Float := ((state >>> 16).toFloat + 1) / 65536

def slot (index : Int32) : Except Fault (Fin storageSize) :=
  if bound : 0 ≤ index.toInt ∧ index.toInt < storageSize then
    .ok ⟨index.toInt.toNat, by omega⟩
  else .error (.transientIndex index)

/-- The topmost operand is the second one of the operation. -/
def binary (operation : Number → Number → Number) : Action Unit := do
  let second ← popNumber
  let first ← popNumber
  push (operation first second)

def arithmetic : ArithmeticOperator → Action Unit
  | .and => binary fun first second => ofBool (first.toFloat != 0 && second.toFloat != 0)
  | .or => binary fun first second => ofBool (first.toFloat != 0 || second.toFloat != 0)
  | .not => do push (ofBool ((← popFloat) == 0))
  | .equal => binary fun first second => ofBool (first.toFloat == second.toFloat)
  | .abs => do push (absolute (← popNumber))
  | .negate => do push (negative (← popNumber))
  | .add => binary (combine (· + ·) (· + ·))
  | .subtract => binary (combine (· - ·) (· - ·))
  | .multiply => binary (combine (· * ·) (· * ·))
  | .divide => binary quotient
  | .squareRoot => do
      let value ← popFloat
      push (.real (if value < 0 then 0 else value).sqrt)
  | .drop => discard popNumber
  | .duplicate => onStack fun stack => return ((), ← stack.duplicate)
  | .exchange => onStack fun stack => return ((), ← stack.exchange)
  | .put => do
      let index ← popInt32
      let value ← popNumber
      let slot ← ExceptT.mk (pure (slot index))
      modify fun machine => { machine with storage := machine.storage.set slot value slot.isLt }
  | .get => do
      let slot ← ExceptT.mk (pure (slot (← popInt32)))
      push ((← get).storage.get slot)
  | .random => do
      modify fun machine => { machine with random := nextRandom machine.random }
      push (.real (randomFloat (← get).random))

def ignore (operator : IgnoredOperator) : Action Unit :=
  modify fun machine => { machine with ignored := machine.ignored ++ [operator] }

end Action

end Letterform.Charstring
