import Letterform.Proofs.Charstring.Lockstep
import Letterform.Proofs.Charstring.Stack

/-!
An operand underneath the stack. Arithmetic and calls work on the top of the stack, so
that an operand at its bottom makes no difference to them, unless the stack is full.
-/

namespace Letterform.Charstring

open Cff (Fault Number)
open Charstring.Computation

/-- The second machine has one more operand, underneath the others. Neither machine has looked
for a width. -/
inductive Underlaid (operand : Operand) (machine : Machine) : Machine → Prop
  | intro {stack : Stack} (unsettled : machine.widthIsSettled = false)
      (missing : machine.width = none) (operands : stack.toList = operand :: machine.stack.toList) :
      Underlaid operand machine { machine with stack }

namespace Underlaid

variable {operand : Operand} {first second : Machine}

theorem withStack (underlaid : Underlaid operand first second) {stack other : Stack}
    (operands : other.toList = operand :: stack.toList) :
    Underlaid operand { first with stack } { second with stack := other } := by
  cases underlaid with
  | intro unsettled missing _ => exact ⟨unsettled, missing, operands⟩

theorem operands (underlaid : Underlaid operand first second) :
    second.stack.toList = operand :: first.stack.toList := by
  cases underlaid with
  | intro _ _ operands => exact operands

theorem size (underlaid : Underlaid operand first second) :
    second.stack.size = first.stack.size + 1 := by
  rw [← Stack.length_toList, underlaid.operands]
  rfl

theorem push (underlaid : Underlaid operand first second) (pushed : Operand)
    (room : (first.stack.push pushed).size < stackLimit) :
    Underlaid operand { first with stack := first.stack.push pushed }
      { second with stack := second.stack.push pushed } := by
  rw [Stack.size_push] at room
  have grown := underlaid.size
  apply underlaid.withStack
  rw [Stack.toList_push (by omega), Stack.toList_push (by omega), underlaid.operands]
  rfl

theorem pop (underlaid : Underlaid operand first second) {popped : Operand} {rest : Stack}
    (pops : first.stack.pop = .ok (popped, rest)) :
    ∃ other, second.stack.pop = .ok (popped, other) ∧
      Underlaid operand { first with stack := rest } { second with stack := other } := by
  have whole : second.stack.toList = (operand :: rest.toList) ++ [popped] := by
    rw [underlaid.operands, Stack.pop_eq_ok_iff.mp pops]
    rfl
  have bound : (operand :: rest.toList).length ≤ stackLimit := by
    have fits : second.stack.toList.length ≤ stackLimit := second.stack.size_le
    rw [whole, List.length_append] at fits
    omega
  rcases Stack.exists_toList bound with ⟨other, operands⟩
  rw [← operands] at whole
  exact ⟨other, Stack.pop_eq_ok_iff.mpr whole, underlaid.withStack operands⟩

theorem duplicate (underlaid : Underlaid operand first second) {result : Stack}
    (duplicates : first.stack.duplicate = .ok result) (room : result.size < stackLimit) :
    ∃ other, second.stack.duplicate = .ok other ∧
      Underlaid operand { first with stack := result } { second with stack := other } := by
  rcases Stack.duplicate_eq_ok_iff.mp duplicates with ⟨top, rest, pops, rfl⟩
  rcases underlaid.pop pops with ⟨other, otherPops, -⟩
  exact ⟨_, Stack.duplicate_eq_ok_iff.mpr ⟨top, other, otherPops, rfl⟩, underlaid.push top room⟩

theorem exchange (underlaid : Underlaid operand first second) {result : Stack}
    (exchanges : first.stack.exchange = .ok result) :
    ∃ other, second.stack.exchange = .ok other ∧
      Underlaid operand { first with stack := result } { second with stack := other } := by
  rcases Stack.exists_of_exchange exchanges with ⟨front, below, top, whole⟩
  rcases Stack.exchange_of_pair whole with ⟨_, same, exchanged⟩
  cases exchanges.symm.trans same
  have otherWhole : second.stack.toList = (operand :: front) ++ [below, top] := by
    rw [underlaid.operands, whole]
    rfl
  rcases Stack.exchange_of_pair otherWhole with ⟨other, otherExchanges, otherExchanged⟩
  refine ⟨other, otherExchanges, underlaid.withStack ?_⟩
  rw [otherExchanged, exchanged]
  rfl

end Underlaid

namespace Action

variable {α β : Type}

/-- With an operand underneath, the action does what it does without, unless it leaves more
operands than the limit. -/
def WorksAbove (limit : Nat) (action : Action α) : Prop :=
  ∀ operand first second, Underlaid operand first second → ∀ value after,
    action.run first = (.ok value, after) → after.stack.size ≤ limit →
      ∃ other, action.run second = (.ok value, other) ∧ Underlaid operand after other

namespace WorksAbove

variable {limit : Nat}

theorem pure (value : α) : WorksAbove limit (Pure.pure value) := by
  intro operand first second underlaid _ _ performed _
  cases performed
  exact ⟨second, rfl, underlaid⟩

theorem ofExcept (result : Except Fault α) :
    WorksAbove limit (ExceptT.mk (Pure.pure result) : Action α) := by
  intro operand first second underlaid value after performed _
  cases performed
  exact ⟨second, rfl, underlaid⟩

/-- What the first action leaves need not be within the limit: an action that pushes does so
last. -/
theorem bind {first : Action α} {next : α → Action β} (works : first.WorksAbove stackLimit)
    (worksNext : ∀ value, (next value).WorksAbove limit) : WorksAbove limit (first >>= next) := by
  intro operand machine second underlaid result last performed room
  rw [run_bind] at performed
  split at performed
  · next value middle found =>
      rcases works operand machine second underlaid value middle found middle.stack.size_le with
        ⟨otherMiddle, otherFound, underlaidMiddle⟩
      rcases worksNext value operand middle otherMiddle underlaidMiddle result last performed room
        with ⟨other, otherPerformed, underlaidLast⟩
      refine ⟨other, ?_, underlaidLast⟩
      rw [run_bind, otherFound]
      exact otherPerformed
  · cases performed

theorem onStack {operation : Stack → Except Fault (α × Stack)}
    (works : ∀ operand first second, Underlaid operand first second → ∀ value stack,
      operation first.stack = .ok (value, stack) → stack.size ≤ limit →
        ∃ other, operation second.stack = .ok (value, other) ∧
          Underlaid operand { first with stack } { second with stack := other }) :
    WorksAbove limit (onStack operation) := by
  intro operand first second underlaid value after performed room
  rw [onStack_run] at performed
  split at performed
  · next parts found =>
      rcases parts with ⟨result, stack⟩
      cases performed
      rcases works operand first second underlaid _ _ found room with ⟨other, otherFound, below⟩
      refine ⟨_, ?_, below⟩
      rw [onStack_run, otherFound]
  · cases performed

theorem pop : WorksAbove limit (Action.onStack Stack.pop) :=
  onStack fun _ _ _ underlaid _ _ pops _ => underlaid.pop pops

theorem popNumber : WorksAbove limit popNumber := .bind .pop fun _ => .pure _

theorem popFloat : WorksAbove limit popFloat := .bind .popNumber fun _ => .pure _

theorem popInt32 : WorksAbove limit popInt32 := .bind .pop fun _ => .pure _

theorem push (number : Number) : WorksAbove (stackLimit - 1) (push number) := by
  intro operand first second underlaid _ _ performed room
  cases performed
  exact ⟨_, rfl, underlaid.push _ (Nat.lt_of_le_pred (by decide) room)⟩

theorem binary (operation : Number → Number → Number) :
    WorksAbove (stackLimit - 1) (binary operation) :=
  .bind .popNumber fun _ => .bind .popNumber fun _ => .push _

theorem arithmetic (operator : ArithmeticOperator) :
    WorksAbove (stackLimit - 1) (arithmetic operator) := by
  cases operator with
  | and | or | equal | add | subtract | multiply | divide => exact .binary _
  | not | squareRoot => exact .bind .popFloat fun _ => .push _
  | abs | negate => exact .bind .popNumber fun _ => .push _
  | drop => exact .bind .popNumber fun _ => .pure _
  | duplicate =>
      rw [Action.arithmetic]
      refine .onStack fun operand first second underlaid value result found room => ?_
      rcases Stack.ok_of_discarded found with ⟨duplicates, rfl⟩
      have room : result.size < stackLimit := Nat.lt_of_le_pred (by decide) room
      rcases underlaid.duplicate duplicates room with ⟨other, otherDuplicates, below⟩
      exact ⟨other, by rw [otherDuplicates]; rfl, below⟩
  | exchange =>
      rw [Action.arithmetic]
      refine .onStack fun operand first second underlaid value result found _ => ?_
      rcases Stack.ok_of_discarded found with ⟨exchanges, rfl⟩
      rcases underlaid.exchange exchanges with ⟨other, otherExchanges, below⟩
      exact ⟨other, by rw [otherExchanges]; rfl, below⟩
  | put =>
      refine .bind .popInt32 fun _ => .bind .popNumber fun _ => .bind (.ofExcept _) fun slot => ?_
      rintro operand _ _ ⟨unsettled, missing, operands⟩ _ _ performed _
      cases performed
      exact ⟨_, rfl, unsettled, missing, operands⟩
  | get =>
      refine .bind .popInt32 fun _ => .bind (.ofExcept _) fun slot => ?_
      rintro operand machine _ ⟨unsettled, missing, operands⟩
      rw [get_run, get_run]
      exact push (machine.storage.get slot) operand _ _ ⟨unsettled, missing, operands⟩
  | random =>
      rw [Action.arithmetic]
      rintro operand machine _ ⟨unsettled, missing, operands⟩
      rw [modify_run, modify_run, get_run, get_run]
      exact push (.real (randomFloat (nextRandom machine.random))) operand _ _
        ⟨unsettled, missing, operands⟩

end WorksAbove

end Action

end Letterform.Charstring
