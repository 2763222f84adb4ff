import Letterform.Charstring.Drawing
import Letterform.Proofs.Charstring.Stack

/-!
Operands by their positions. Some lines and curves take operands one at a time from
wherever they are in the stack, and reading past its top is a fault. They never do:
the check in front of each reading covers it, and so reading by positions comes to the
same as going through the list of operands.
-/

namespace Letterform.Charstring

open Cff (Fault)

namespace Stack

def duplicateAt (stack : Stack) : Except Fault Stack := do
  stack.requireSize 1
  return stack.push (← stack.get (stack.size - 1))

theorem get_eq_ok {stack : Stack} {position : Nat} (within : position < stack.size) :
    ∃ operand, stack.get position = .ok operand ∧
      stack.toList.drop position = operand :: stack.toList.drop (position + 1) := by
  have present : position < stack.toList.length := within
  have found : stack.entries[position]? = some stack.toList[position] := by
    rw [← Array.getElem?_toList]
    exact List.getElem?_eq_getElem present
  refine ⟨stack.toList[position], ?_, List.drop_eq_getElem_cons present⟩
  simp only [get, found]

theorem duplicateAt_eq (stack : Stack) : stack.duplicateAt = stack.duplicate := by
  by_cases empty : stack.size = 0
  · have none : stack.entries = #[] := Array.eq_empty_of_size_eq_zero empty
    simp [duplicateAt, duplicate, requireSize, empty, none, bind, Except.bind]
  · have enough : ¬stack.size < 1 := by omega
    rcases stack.get_eq_ok (show stack.size - 1 < stack.size by omega) with ⟨top, found, ends⟩
    have nothing : stack.toList.drop (stack.size - 1 + 1) = [] := by
      apply List.drop_eq_nil_of_le
      rw [length_toList]
      omega
    rw [nothing] at ends
    have back : stack.entries.back? = some top := by
      have whole := List.take_append_drop (stack.size - 1) stack.toList
      rw [ends] at whole
      rw [← Array.getLast?_toList]
      exact (congrArg List.getLast? whole.symm).trans List.getLast?_concat
    simp only [duplicateAt, duplicate, requireSize, if_neg enough, found, back, bind, Except.bind,
      pure, Except.pure]

end Stack

namespace Drawing

def fixedAt (stack : Stack) (position : Nat) : Drawing Fixed :=
  ExceptT.mk (pure ((stack.get position).map Operand.toFixed))

def alternatingLinesAt (stack : Stack) (axis : Axis) (position : Nat) : Drawing Unit :=
  if position < stack.size then do
    let distance ← fixedAt stack position
    lineTo (along axis distance (← Drawing.position))
    alternatingLinesAt stack axis.other (position + 1)
  else pure ()
termination_by stack.size - position

def straightCurvesAt (stack : Stack) (axis : Axis) (position : Nat) : Drawing Unit :=
  if position + 4 ≤ stack.size then do
    let distance ← fixedAt stack position
    let dx ← fixedAt stack (position + 1)
    let dy ← fixedAt stack (position + 2)
    let last ← fixedAt stack (position + 3)
    let first := along axis distance (← Drawing.position)
    let second := first + ⟨dx, dy⟩
    curveTo first second (along axis last second)
    straightCurvesAt stack axis (position + 4)
  else pure ()
termination_by stack.size - position

/-- The extra operand is looked for behind every curve and read when it is the only one left. -/
def turningCurvesAt (stack : Stack) (axis : Axis) (position : Nat) : Drawing Unit :=
  if position + 4 ≤ stack.size then do
    let distance ← fixedAt stack position
    let dx ← fixedAt stack (position + 1)
    let dy ← fixedAt stack (position + 2)
    let last ← fixedAt stack (position + 3)
    let first := along axis distance (← Drawing.position)
    let second := first + ⟨dx, dy⟩
    if stack.size - position = 5 then
      let extra ← fixedAt stack (position + 4)
      curveTo first second (along axis extra (along axis.other last second))
    else
      curveTo first second (along axis.other last second)
      turningCurvesAt stack axis.other (position + 4)
  else pure ()
termination_by stack.size - position

def pathAt (stack : Stack) : PathOperator → Drawing Unit
  | .alternatingLines axis => do
      require 1 stack.toFixedList
      alternatingLinesAt stack axis 0
  | .straightCurves axis =>
      if stack.hasOddSize then do
        let offset ← fixedAt stack 0
        require 5 stack.toFixedList
        modify fun pen => { pen with position := along axis.other offset pen.position }
        straightCurvesAt stack axis 1
      else do
        require 4 stack.toFixedList
        straightCurvesAt stack axis 0
  | .turningCurves axis => do
      require 4 stack.toFixedList
      turningCurvesAt stack axis 0
  | operator => path stack.toFixedList operator

variable {stack : Stack} {position : Nat}

theorem fixedAt_eq_pure (within : position < stack.size) :
    ∃ operand, fixedAt stack position = pure operand ∧
      stack.toFixedList.drop position = operand :: stack.toFixedList.drop (position + 1) := by
  rcases stack.get_eq_ok within with ⟨operand, found, ends⟩
  refine ⟨operand.toFixed, ?_, ?_⟩
  · rw [fixedAt, found]
    rfl
  · rw [Stack.toFixedList, ← List.map_drop, ends, List.map_cons, List.map_drop]

theorem drop_toFixedList (past : stack.size ≤ position) : stack.toFixedList.drop position = [] := by
  apply List.drop_eq_nil_of_le
  rw [Stack.length_toFixedList]
  exact past

theorem alternatingLinesAt_eq (stack : Stack) (axis : Axis) (position : Nat) :
    alternatingLinesAt stack axis position =
      alternatingLines axis (stack.toFixedList.drop position) := by
  induction axis, position using alternatingLinesAt.induct stack with
  | case1 axis position within induction =>
      rcases fixedAt_eq_pure within with ⟨distance, found, operands⟩
      rw [alternatingLinesAt, if_pos within, found, pure_bind, induction, operands,
        alternatingLines]
  | case2 axis position past =>
      rw [alternatingLinesAt, if_neg past, drop_toFixedList (Nat.le_of_not_lt past)]
      rfl

theorem fixedAt_four (within : position + 4 ≤ stack.size) :
    ∃ distance dx dy last, fixedAt stack position = pure distance ∧
      fixedAt stack (position + 1) = pure dx ∧ fixedAt stack (position + 2) = pure dy ∧
      fixedAt stack (position + 3) = pure last ∧
      stack.toFixedList.drop position =
        distance :: dx :: dy :: last :: stack.toFixedList.drop (position + 4) := by
  rcases fixedAt_eq_pure (show position < stack.size by omega) with ⟨distance, found, operands⟩
  rcases fixedAt_eq_pure (show position + 1 < stack.size by omega) with ⟨dx, foundX, operandsX⟩
  rcases fixedAt_eq_pure (show position + 2 < stack.size by omega) with ⟨dy, foundY, operandsY⟩
  rcases fixedAt_eq_pure (show position + 3 < stack.size by omega) with ⟨last, foundLast, others⟩
  exact ⟨distance, dx, dy, last, found, foundX, foundY, foundLast,
    by rw [operands, operandsX, operandsY, others]⟩

theorem length_drop_toFixedList (stack : Stack) (position : Nat) :
    (stack.toFixedList.drop position).length = stack.size - position := by
  rw [List.length_drop, Stack.length_toFixedList]

theorem straightCurvesAt_eq (stack : Stack) (axis : Axis) (position : Nat) :
    straightCurvesAt stack axis position =
      straightCurves axis (stack.toFixedList.drop position) := by
  induction position using straightCurvesAt.induct stack with
  | case1 position within induction =>
      rcases fixedAt_four within with
        ⟨distance, dx, dy, last, found, foundX, foundY, foundLast, operands⟩
      rw [straightCurvesAt, if_pos within, found, foundX, foundY, foundLast, induction, operands,
        straightCurves]
      simp only [pure_bind]
  | case2 position past =>
      have short := length_drop_toFixedList stack position
      rw [straightCurvesAt, if_neg past, straightCurves.eq_2]
      intro distance dx dy last rest operands
      rw [operands] at short
      simp only [List.length_cons] at short
      omega

theorem turningCurvesAt_eq (stack : Stack) (axis : Axis) (position : Nat) :
    turningCurvesAt stack axis position =
      turningCurves axis (stack.toFixedList.drop position) := by
  induction axis, position using turningCurvesAt.induct stack with
  | case1 axis position within induction =>
      rcases fixedAt_four within with
        ⟨distance, dx, dy, last, found, foundX, foundY, foundLast, operands⟩
      rw [turningCurvesAt, if_pos within, found, foundX, foundY, foundLast, induction, operands]
      simp only [pure_bind]
      by_cases five : stack.size - position = 5
      · rcases fixedAt_eq_pure (show position + 4 < stack.size by omega) with
          ⟨extra, foundExtra, others⟩
        rw [drop_toFixedList (show stack.size ≤ position + 4 + 1 by omega)] at others
        simp only [five, if_true, foundExtra, pure_bind, others, turningCurves]
      · have left := length_drop_toFixedList stack (position + 4)
        rw [turningCurves.eq_2]
        · simp only [five, if_false]
        · intro extra operands
          rw [operands, List.length_singleton] at left
          omega
  | case2 axis position past =>
      have short := length_drop_toFixedList stack position
      rw [turningCurvesAt, if_neg past, turningCurves.eq_3]
      · intro distance dx dy last extra operands
        rw [operands] at short
        simp only [List.length_cons] at short
        omega
      · intro distance dx dy last rest operands
        rw [operands] at short
        simp only [List.length_cons] at short
        omega

theorem require_cons (count : Nat) (operand : Fixed) (rest : List Fixed) :
    require (count + 1) (operand :: rest) = require count rest := by
  simp only [require, List.length_cons, Nat.add_lt_add_iff_right]

theorem oddOffset?_of_even {operands : List Fixed} (even : ¬operands.length % 2 = 1) :
    oddOffset? operands = none := by
  cases operands with
  | nil => rfl
  | cons offset rest =>
      rw [List.length_cons] at even
      exact if_neg (by omega)

/-- Whatever the operands are, every position that is read holds one of them. -/
theorem pathAt_eq (stack : Stack) (operator : PathOperator) :
    pathAt stack operator = path stack.toFixedList operator := by
  cases operator with
  | alternatingLines axis => rw [pathAt, alternatingLinesAt_eq, List.drop_zero, path]
  | turningCurves axis => rw [pathAt, turningCurvesAt_eq, List.drop_zero, path]
  | straightCurves axis =>
      have length := Stack.length_toFixedList stack
      rw [pathAt, straightCurvesAt_eq, straightCurvesAt_eq, List.drop_zero, path]
      simp only [Stack.hasOddSize, decide_eq_true_eq]
      by_cases odd : stack.size % 2 = 1
      · rcases fixedAt_eq_pure (show 0 < stack.size by omega) with ⟨offset, found, operands⟩
        rw [List.drop_zero] at operands
        generalize stack.toFixedList.drop 1 = rest at operands
        rw [operands, List.length_cons] at length
        have even : rest.length % 2 = 0 := by omega
        simp only [if_pos odd, found, pure_bind, operands, oddOffset?, if_pos even, require_cons]
      · have even : ¬stack.toFixedList.length % 2 = 1 := by omega
        simp only [if_neg odd, oddOffset?_of_even even]
  | lines | curves | curvesThenLine | linesThenCurve | flex | flexHorizontal
  | flexHorizontalShort | flexShort => rfl

end Drawing

end Letterform.Charstring
