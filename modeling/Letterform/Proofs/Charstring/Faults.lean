import Letterform.Charstring.Evaluation
import Letterform.Proofs.Charstring.Token

/-!
The faults of the operators. Apart from calls, an operator can only miss operands or
name a slot of the storage that does not exist. Taking the width never fails, since
it is only taken from a stack that holds it. A call fails if it names no subroutine
or one that cannot be read.
-/

namespace Letterform.Charstring

open Cff (Fault Number)

/-! Computations that change a state and may fail. -/

namespace Computation

variable {σ α β : Type}

theorem run_bind (first : ExceptT Fault (StateM σ) α) (next : α → ExceptT Fault (StateM σ) β)
    (state : σ) :
    (first >>= next).run state = match first.run state with
      | (.ok value, state) => (next value).run state
      | (.error fault, state) => (.error fault, state) := by
  show (match first.run state with
    | (result, state) => (ExceptT.bindCont next result).run state) = _
  rcases first.run state with ⟨_ | _, _⟩ <;> rfl

def FailsFrom (allowed : Fault → Prop) (state : σ) (computation : ExceptT Fault (StateM σ) α) :
    Prop :=
  ∀ fault after, computation.run state = (.error fault, after) → allowed fault

def FailsWith (allowed : Fault → Prop) (computation : ExceptT Fault (StateM σ) α) : Prop :=
  ∀ state, FailsFrom allowed state computation

variable {allowed : Fault → Prop}

theorem FailsFrom.bind {state : σ} {first : ExceptT Fault (StateM σ) α}
    {next : α → ExceptT Fault (StateM σ) β} (fails : FailsFrom allowed state first)
    (failsNext : ∀ value after, first.run state = (.ok value, after) →
      FailsFrom allowed after (next value)) :
    FailsFrom allowed state (first >>= next) := by
  intro fault after equal
  rw [run_bind] at equal
  split at equal
  · next value middle found => exact failsNext value middle found fault after equal
  · next found =>
      cases equal
      exact fails _ _ found

namespace FailsWith

theorem bind {first : ExceptT Fault (StateM σ) α} {next : α → ExceptT Fault (StateM σ) β}
    (fails : FailsWith allowed first) (failsNext : ∀ value, FailsWith allowed (next value)) :
    FailsWith allowed (first >>= next) := by
  intro state
  apply (fails state).bind
  intro value after _
  exact failsNext value after

theorem pure (value : α) : FailsWith allowed (pure value : ExceptT Fault (StateM σ) α) := by
  intro state fault after equal
  cases equal

theorem throw {fault : Fault} (isAllowed : allowed fault) :
    FailsWith allowed (throw fault : ExceptT Fault (StateM σ) α) := by
  intro state other after equal
  cases equal
  exact isAllowed

theorem get : FailsWith allowed (get : ExceptT Fault (StateM σ) σ) := by
  intro state fault after equal
  cases equal

theorem modify (change : σ → σ) :
    FailsWith allowed (modify change : ExceptT Fault (StateM σ) PUnit) := by
  intro state fault after equal
  cases equal

theorem ofExcept {result : Except Fault α}
    (fails : ∀ fault, result = .error fault → allowed fault) :
    FailsWith allowed (ExceptT.mk (Pure.pure result) : ExceptT Fault (StateM σ) α) := by
  intro state fault after equal
  cases equal
  exact fails fault rfl

end FailsWith

end Computation

open Charstring.Computation

/-! Drawing. -/

def IsUnderflow (fault : Fault) : Prop := fault = .stackUnderflow

namespace Drawing

theorem position_failsWith : FailsWith IsUnderflow position := .bind .get fun _ => .pure _

theorem lines_failsWith (operands : List Fixed) : FailsWith IsUnderflow (lines operands) := by
  induction operands using lines.induct with
  | case1 dx dy rest induction =>
      exact .bind position_failsWith fun _ => .bind (.modify _) fun _ => induction
  | case2 => exact .pure _
  | case3 => exact .throw rfl

theorem alternatingLines_failsWith (axis : Axis) (operands : List Fixed) :
    FailsWith IsUnderflow (alternatingLines axis operands) := by
  induction operands generalizing axis with
  | nil => exact .pure _
  | cons distance rest induction =>
      exact .bind position_failsWith fun _ => .bind (.modify _) fun _ => induction axis.other

theorem curves_failsWith (operands : List Fixed) : FailsWith IsUnderflow (curves operands) := by
  induction operands using curves.induct with
  | case1 dx1 dy1 dx2 dy2 dx3 dy3 rest induction =>
      exact .bind position_failsWith fun _ => .bind (.modify _) fun _ => induction
  | case2 operands short =>
      rw [curves.eq_2 operands short]
      exact .pure _

theorem straightCurves_failsWith (axis : Axis) (operands : List Fixed) :
    FailsWith IsUnderflow (straightCurves axis operands) := by
  induction operands using straightCurves.induct with
  | case1 distance dx dy last rest induction =>
      exact .bind position_failsWith fun _ => .bind (.modify _) fun _ => induction
  | case2 operands short =>
      rw [straightCurves.eq_2 axis operands short]
      exact .pure _

theorem turningCurves_failsWith (axis : Axis) (operands : List Fixed) :
    FailsWith IsUnderflow (turningCurves axis operands) := by
  induction axis, operands using turningCurves.induct with
  | case1 axis distance dx dy last extra =>
      exact .bind position_failsWith fun _ => .modify _
  | case2 axis distance dx dy last rest notLast induction =>
      rw [turningCurves.eq_2 axis distance dx dy last rest notLast]
      exact .bind position_failsWith fun _ => .bind (.modify _) fun _ => induction
  | case3 operands axis notLast short =>
      rw [turningCurves.eq_3 axis operands notLast short]
      exact .pure _

theorem require_failsWith (count : Nat) (operands : List Fixed) :
    FailsWith IsUnderflow (require count operands) := by
  unfold require
  split
  · exact .throw rfl
  · exact .pure _

theorem path_failsWith (operands : List Fixed) (operator : PathOperator) :
    FailsWith IsUnderflow (path operands operator) := by
  cases operator with
  | lines => exact .bind (require_failsWith _ _) fun _ => lines_failsWith operands
  | alternatingLines axis =>
      exact .bind (require_failsWith _ _) fun _ => alternatingLines_failsWith axis operands
  | curves =>
      exact .bind (require_failsWith _ _) fun _ => .bind (curves_failsWith operands) fun _ => .pure _
  | curvesThenLine =>
      refine .bind (require_failsWith _ _) fun _ => .bind (curves_failsWith operands) fun rest => ?_
      split
      · exact .bind position_failsWith fun _ => .modify _
      · exact .throw rfl
  | linesThenCurve =>
      exact .bind (require_failsWith _ _) fun _ => .bind (lines_failsWith _) fun _ =>
        .bind (curves_failsWith _) fun _ => .pure _
  | straightCurves axis =>
      simp only [path]
      split
      · exact .bind (require_failsWith _ _) fun _ => .bind (.modify _) fun _ =>
          straightCurves_failsWith axis _
      · exact .bind (require_failsWith _ _) fun _ => straightCurves_failsWith axis operands
  | turningCurves axis =>
      exact .bind (require_failsWith _ _) fun _ => turningCurves_failsWith axis operands
  | flex | flexHorizontal | flexHorizontalShort | flexShort =>
      simp only [path, flex, flexHorizontal, flexHorizontalShort, flexShort]
      split
      · exact .bind position_failsWith fun _ => .bind (.modify _) fun _ => .modify _
      · exact .throw rfl

end Drawing

/-! Operators. -/

def IsOperandFault (fault : Fault) : Prop :=
  fault = .stackUnderflow ∨ ∃ index, fault = .transientIndex index

namespace Stack

theorem pop_underflow {stack : Stack} {fault : Fault} (equal : stack.pop = .error fault) :
    fault = .stackUnderflow := by
  simp only [pop] at equal
  split at equal
  · cases equal
  · cases equal
    rfl

theorem duplicate_underflow {stack : Stack} {fault : Fault}
    (equal : stack.duplicate = .error fault) : fault = .stackUnderflow := by
  simp only [duplicate] at equal
  split at equal
  · cases equal
  · cases equal
    rfl

theorem exchange_underflow {stack : Stack} {fault : Fault}
    (equal : stack.exchange = .error fault) : fault = .stackUnderflow := by
  simp only [exchange, requireSize] at equal
  split at equal
  · cases equal
    rfl
  · cases equal

theorem error_of_discarded {result : Except Fault Stack} {fault : Fault}
    (equal : (do return ((), ← result)) = (.error fault : Except Fault (Unit × Stack))) :
    result = .error fault := by
  cases result with
  | ok stack => cases equal
  | error other =>
      cases equal
      rfl

theorem takeFirst_ok {stack : Stack} (nonempty : stack.size ≠ 0) (fault : Fault) :
    stack.takeFirst ≠ .error fault := by
  have present : 0 < stack.entries.size := Nat.pos_of_ne_zero nonempty
  simp [takeFirst, Stack.get, Array.getElem?_eq_getElem present, bind, Except.bind, pure,
    Except.pure]

end Stack

namespace Action

theorem draw_failsWith {drawing : Drawing Unit} (fails : FailsWith IsUnderflow drawing) :
    FailsWith IsOperandFault (draw drawing) := by
  intro machine fault after equal
  have failed : (drawing.run machine.pen).1 = .error fault := (Prod.mk.inj equal).1
  exact .inl (fails machine.pen fault (drawing.run machine.pen).2 (Prod.ext failed rfl))

theorem emit_failsWith (command : Command) : FailsWith IsOperandFault (emit command) :=
  draw_failsWith (.modify _)

theorem onStack_failsWith {α : Type} {operation : Stack → Except Fault (α × Stack)}
    (fails : ∀ stack fault, operation stack = .error fault → fault = .stackUnderflow) :
    FailsWith IsOperandFault (onStack operation) :=
  .bind .get fun machine =>
    .bind (.ofExcept fun fault equal => .inl (fails machine.stack fault equal)) fun _ =>
      .bind (.modify _) fun _ => .pure _

theorem popNumber_failsWith : FailsWith IsOperandFault popNumber :=
  .bind (onStack_failsWith fun _ _ => Stack.pop_underflow) fun _ => .pure _

theorem popFloat_failsWith : FailsWith IsOperandFault popFloat :=
  .bind popNumber_failsWith fun _ => .pure _

theorem popInt32_failsWith : FailsWith IsOperandFault popInt32 :=
  .bind (onStack_failsWith fun _ _ => Stack.pop_underflow) fun _ => .pure _

theorem settleWidth_failsFrom {isPresent : Bool} {machine : Machine}
    (holds : isPresent = true → machine.stack.size ≠ 0) :
    FailsFrom IsOperandFault machine (settleWidth isPresent) := by
  refine (FailsWith.get machine).bind fun value after equal => ?_
  cases equal
  split
  · refine (FailsWith.modify _ machine).bind fun _ after equal => ?_
    cases equal
    split
    · next isPresent =>
        refine FailsFrom.bind ?_ fun width after _ => FailsWith.modify _ after
        refine (FailsWith.get _).bind fun value after equal => ?_
        cases equal
        refine FailsFrom.bind ?_ fun _ after _ => (FailsWith.bind (.modify _) fun _ => .pure _) after
        exact FailsWith.ofExcept (fun fault equal =>
          absurd equal (Stack.takeFirst_ok (holds isPresent) fault)) _
    · exact FailsWith.pure _ _
  · exact FailsWith.pure _ _

theorem emitStems_failsWith (axis : Axis) (edges : List (Fixed × Fixed)) :
    FailsWith IsOperandFault (emitStems axis edges) := by
  induction edges with
  | nil => exact .pure _
  | cons edge edges induction => exact .bind (emit_failsWith _) fun _ => induction

theorem stems_failsWith (axis : Axis) : FailsWith IsOperandFault (stems axis) := by
  intro machine
  refine (FailsWith.get machine).bind fun value after equal => ?_
  cases equal
  refine FailsFrom.bind (settleWidth_failsFrom fun odd => ?_) fun _ after _ => ?_
  · simp only [Stack.hasOddSize, decide_eq_true_eq] at odd
    omega
  · exact FailsWith.bind .get (fun _ => .bind (emitStems_failsWith _ _) fun _ =>
      .bind (.modify _) fun _ => .modify _) after

theorem openSubpath_failsWith : FailsWith IsOperandFault openSubpath := by
  refine .bind .get fun machine => ?_
  split
  · exact emit_failsWith _
  · exact .modify _

theorem moveTarget_underflow {operator : MoveOperator} {operands : List Fixed}
    {start : Point Fixed} {fault : Fault}
    (equal : moveTarget operator operands start = .error fault) : fault = .stackUnderflow := by
  simp only [moveTarget] at equal
  split at equal
  · cases equal
  · cases equal
  · cases equal
    rfl

theorem move_failsWith (operator : MoveOperator) : FailsWith IsOperandFault (move operator) := by
  intro machine
  refine (FailsWith.get machine).bind fun value after equal => ?_
  cases equal
  refine FailsFrom.bind (settleWidth_failsFrom fun present => ?_) fun _ after _ => ?_
  · simp only [decide_eq_true_eq] at present
    omega
  · exact FailsWith.bind openSubpath_failsWith (fun _ => .bind .get fun _ =>
      .bind (.ofExcept fun _ equal => .inl (moveTarget_underflow equal)) fun _ =>
        .bind (draw_failsWith (.modify _)) fun _ => .modify _) after

theorem path_failsWith (operator : PathOperator) : FailsWith IsOperandFault (path operator) :=
  .bind .get fun _ => .bind (draw_failsWith (Drawing.path_failsWith _ _)) fun _ => .modify _

theorem endCharacter_failsWith : FailsWith IsOperandFault endCharacter := by
  intro machine
  refine (FailsWith.get machine).bind fun value after equal => ?_
  cases equal
  refine FailsFrom.bind (settleWidth_failsFrom fun present => ?_) fun _ after _ => ?_
  · simp only [Bool.or_eq_true, decide_eq_true_eq] at present
    omega
  · refine FailsWith.bind .get (fun machine => ?_) after
    split
    · exact .bind (.modify _) fun _ => .bind (emit_failsWith _) fun _ => .modify _
    · exact .modify _

theorem binary_failsWith (operation : Number → Number → Number) :
    FailsWith IsOperandFault (binary operation) :=
  .bind popNumber_failsWith fun _ => .bind popNumber_failsWith fun _ => .modify _

theorem slot_transientIndex {index : Int32} {fault : Fault} (equal : slot index = .error fault) :
    fault = .transientIndex index := by
  simp only [slot] at equal
  split at equal
  · cases equal
  · cases equal
    rfl

theorem arithmetic_failsWith (operator : ArithmeticOperator) :
    FailsWith IsOperandFault (arithmetic operator) := by
  cases operator with
  | and | or | equal | add | subtract | multiply | divide => exact binary_failsWith _
  | not | squareRoot => exact .bind popFloat_failsWith fun _ => .modify _
  | abs | negate => exact .bind popNumber_failsWith fun _ => .modify _
  | drop => exact .bind popNumber_failsWith fun _ => .pure _
  | duplicate =>
      simp only [arithmetic]
      exact onStack_failsWith fun _ _ equal =>
        Stack.duplicate_underflow (Stack.error_of_discarded equal)
  | exchange =>
      simp only [arithmetic]
      exact onStack_failsWith fun _ _ equal =>
        Stack.exchange_underflow (Stack.error_of_discarded equal)
  | put =>
      exact .bind popInt32_failsWith fun index => .bind popNumber_failsWith fun _ =>
        .bind (.ofExcept fun _ equal => .inr ⟨index, slot_transientIndex equal⟩) fun _ => .modify _
  | get =>
      exact .bind popInt32_failsWith fun index =>
        .bind (.ofExcept fun _ equal => .inr ⟨index, slot_transientIndex equal⟩) fun _ =>
          .bind .get fun _ => .modify _
  | random => exact .bind (.modify _) fun _ => .bind .get fun _ => .modify _

theorem ignore_failsWith (operator : IgnoredOperator) :
    FailsWith IsOperandFault (ignore operator) :=
  .modify _

end Action

end Letterform.Charstring

/-! Calls. -/

namespace Letterform.Cff.Index

def IsFault (index : Index) (fault : Fault) : Prop :=
  fault.IsOutOfBounds ∨ fault = .zeroOffset ∨
    fault = .offsetSize index.offsetSize ∧ (index.offsetSize < 1 ∨ 4 < index.offsetSize)

theorem isFault_of_offset {index : Index} {position : Nat} {fault : Fault}
    (equal : index.offset position = .error fault) : index.IsFault fault := by
  simp only [offset] at equal
  split at equal
  · cases equal
    exact .inl ⟨_, rfl⟩
  · split at equal
    · next wrongSize =>
        cases equal
        exact .inr (.inr ⟨rfl, by simpa using wrongSize⟩)
    · split at equal
      · cases equal
        exact .inl ⟨_, rfl⟩
      · split at equal
        · cases equal
          exact .inr (.inl rfl)
        · cases equal

theorem isFault_of_get {index : Index} {position : Nat} {fault : Fault}
    (equal : index.get position = .error fault) : index.IsFault fault := by
  simp only [get, bind, Except.bind] at equal
  split at equal
  · next failed =>
      cases equal
      exact isFault_of_offset failed
  · split at equal
    · next failed =>
        cases equal
        exact isFault_of_offset failed
    · split at equal
      · cases equal
      · cases equal
        exact .inl ⟨_, rfl⟩

end Letterform.Cff.Index

namespace Letterform.Charstring.Subroutines

open Cff (Fault)

def IsCallFault (subroutines : Subroutines) (fault : Fault) : Prop :=
  fault = .missingSubroutines ∨ fault = .stackUnderflow ∨
    (∃ number, fault = .subroutineIndex number) ∨
    ∃ scope index, subroutines.index scope = .ok index ∧ 0 < index.size ∧ index.IsFault fault

theorem isCallFault_of_callee {subroutines : Subroutines} {scope : SubroutineScope}
    {stack : Stack} {fault : Fault}
    (equal : subroutines.callee scope stack = .error fault) : subroutines.IsCallFault fault := by
  simp only [callee, bind, Except.bind] at equal
  split at equal
  · next missing =>
      cases equal
      cases scope with
      | globals => cases missing
      | locals =>
          simp only [Subroutines.index] at missing
          split at missing
          · cases missing
          · cases missing
            exact .inl rfl
  · next index found =>
      split at equal
      · next underflow =>
          cases equal
          exact .inr (.inl (Stack.pop_underflow underflow))
      · split at equal
        · next unread =>
            cases equal
            simp only [body] at unread
            split at unread
            · cases unread
              exact .inr (.inr (.inl ⟨_, rfl⟩))
            · next outside =>
                have within : 0 < index.size := by
                  simp only [Bool.or_eq_true, decide_eq_true_eq, not_or, Nat.not_le] at outside
                  omega
                exact .inr (.inr (.inr
                  ⟨scope, index, found, within, Cff.Index.isFault_of_get unread⟩))
        · cases equal

end Letterform.Charstring.Subroutines
