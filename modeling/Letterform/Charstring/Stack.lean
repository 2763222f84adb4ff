import Letterform.Cff.Number
import Letterform.Number.Fixed

/-!
The operand stack of a charstring. It holds at most 48 integers and fixed-point
numbers; what is pushed onto a full stack is dropped. Operations read from the
bottom by position or take from the top, and one that fails changes nothing.
-/

namespace Letterform.Charstring

open Cff (Fault Number)

inductive Operand
  | integer (value : Int32)
  | fixed (value : Fixed)
  deriving DecidableEq, Repr

namespace Operand

def toInt32 : Operand → Int32
  | .integer value => value
  | .fixed value => value.toInt32

def toFixed : Operand → Fixed
  | .integer value => .ofInt32 value
  | .fixed value => value

def toNumber : Operand → Number
  | .integer value => .integer value
  | .fixed value => .real value.toFloat

def ofNumber : Number → Operand
  | .integer value => .integer value
  | .real value => .fixed (.ofFloat value)

end Operand

def stackLimit : Nat := 48

structure Stack where
  entries : Array Operand
  size_le : entries.size ≤ stackLimit := by decide

namespace Stack

def empty : Stack := { entries := #[] }

instance : Inhabited Stack := ⟨empty⟩

def toList (stack : Stack) : List Operand := stack.entries.toList

def size (stack : Stack) : Nat := stack.entries.size

def isEmpty (stack : Stack) : Bool := stack.entries.isEmpty

def hasOddSize (stack : Stack) : Bool := stack.size % 2 = 1

def push (stack : Stack) (operand : Operand) : Stack :=
  if space : stack.entries.size < stackLimit then
    { entries := stack.entries.push operand, size_le := by rw [Array.size_push]; exact space }
  else stack

def pushNumber (stack : Stack) (number : Number) : Stack := stack.push (.ofNumber number)

def requireSize (stack : Stack) (count : Nat) : Except Fault Unit :=
  if stack.size < count then .error .stackUnderflow else .ok ()

def get (stack : Stack) (position : Nat) : Except Fault Operand :=
  match stack.entries[position]? with
  | some operand => .ok operand
  | none => .error (.stackAccess position)

def pop (stack : Stack) : Except Fault (Operand × Stack) :=
  match stack.entries.back? with
  | some operand =>
      .ok (operand, {
        entries := stack.entries.pop
        size_le := by
          have := stack.size_le
          simp only [Array.size_pop]
          omega })
  | none => .error .stackUnderflow

def takeFirst (stack : Stack) : Except Fault (Operand × Stack) := do
  let operand ← stack.get 0
  return (operand, {
    entries := stack.entries.extract 1
    size_le := by
      have := stack.size_le
      simp only [Array.size_extract]
      omega })

def exchange (stack : Stack) : Except Fault Stack := do
  stack.requireSize 2
  return {
    entries := stack.entries.swapIfInBounds (stack.size - 2) (stack.size - 1)
    size_le := by simpa using stack.size_le }

def duplicate (stack : Stack) : Except Fault Stack :=
  match stack.entries.back? with
  | some operand => .ok (stack.push operand)
  | none => .error .stackUnderflow

def toFixedList (stack : Stack) : List Fixed := stack.toList.map Operand.toFixed

theorem length_toFixedList (stack : Stack) : stack.toFixedList.length = stack.size := by
  rw [toFixedList, List.length_map]
  rfl

def fixedSlice (stack : Stack) (start count : Nat) : Except Fault (List Fixed) := do
  stack.requireSize (start + count)
  return (stack.toFixedList.drop start).take count

end Stack

end Letterform.Charstring
