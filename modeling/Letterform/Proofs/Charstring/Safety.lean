import Letterform.Proofs.Charstring.Conclusion
import Letterform.Proofs.Charstring.Nesting
import Letterform.Proofs.Charstring.Positions

/-!
What can go wrong in an evaluation. With subroutines from INDEXes that have been read
there are eight kinds of faults. No number is malformed, since the byte in front of it
says that there is one; no operand is read past the top of the stack; and an offset of
an INDEX has a size that could be read.
-/

namespace Letterform

namespace Cff.Index

def IsRead (index : Index) : Prop := ∃ bytes, ofBytes bytes = .ok index

theorem offsetSize_of_read {index : Index} (isRead : index.IsRead) (nonempty : 0 < index.size) :
    ¬index.offsetSize < 1 ∧ ¬4 < index.offsetSize := by
  rcases isRead with ⟨bytes, decoded⟩
  have run : decoder.run { rest := bytes } = (.ok index, _) := Prod.ext decoded rfl
  rcases Decoder.exists_run_of_bind run with ⟨count, afterCount, -, run⟩
  split at run
  · cases run
    cases nonempty
  · rcases Decoder.exists_run_of_bind run with ⟨offsetSize, afterSize, -, run⟩
    split at run
    · cases run
    · next sized =>
        rcases Decoder.exists_run_of_bind run with ⟨offsets, afterOffsets, -, run⟩
        cases run
        simpa using sized

end Cff.Index

namespace Charstring

open Cff (Fault nestingLimit)
open Charstring.Configuration

inductive IsEvaluationFault : Fault → Prop
  | outOfBounds (offset : Nat) : IsEvaluationFault (.read (.outOfBounds offset))
  | zeroOffset : IsEvaluationFault .zeroOffset
  | stackUnderflow : IsEvaluationFault .stackUnderflow
  | charstringOperator (opcode : UInt8) : IsEvaluationFault (.charstringOperator opcode)
  | transientIndex (index : Int32) : IsEvaluationFault (.transientIndex index)
  | subroutineIndex (index : Int32) : IsEvaluationFault (.subroutineIndex index)
  | missingSubroutines : IsEvaluationFault .missingSubroutines
  | nestingTooDeep : IsEvaluationFault .nestingTooDeep

variable {subroutines : Subroutines}

namespace Subroutines

def AreRead (subroutines : Subroutines) : Prop :=
  subroutines.globals.IsRead ∧ ∀ index, subroutines.locals = some index → index.IsRead

theorem AreRead.index {scope : SubroutineScope} {index : Cff.Index}
    (areRead : subroutines.AreRead) (found : subroutines.index scope = .ok index) :
    index.IsRead := by
  cases scope with
  | globals =>
      cases found
      exact areRead.1
  | locals =>
      simp only [Subroutines.index] at found
      split at found
      · next present =>
          cases found
          exact areRead.2 _ present
      · cases found

end Subroutines

theorem isEvaluationFault_of_outOfBounds {fault : Fault} (missing : fault.IsOutOfBounds) :
    IsEvaluationFault fault := by
  rcases missing with ⟨offset, rfl⟩
  exact .outOfBounds offset

theorem isEvaluationFault_of_call (areRead : subroutines.AreRead) {fault : Fault}
    (isFault : subroutines.IsCallFault fault) : IsEvaluationFault fault := by
  rcases isFault with rfl | rfl | ⟨number, rfl⟩ | ⟨scope, index, found, nonempty, isFault⟩
  · exact .missingSubroutines
  · exact .stackUnderflow
  · exact .subroutineIndex number
  · rcases isFault with missing | rfl | ⟨-, wrongSize⟩
    · exact isEvaluationFault_of_outOfBounds missing
    · exact .zeroOffset
    · have sized := Cff.Index.offsetSize_of_read (areRead.index found) nonempty
      exact absurd wrongSize (not_or.mpr sized)

theorem isEvaluationFault_of_step (areRead : subroutines.AreRead) {configuration : Configuration}
    {fault : Fault} (isFault : configuration.IsStepFault subroutines fault) :
    IsEvaluationFault fault := by
  rcases isFault with (missing | ⟨opcode, rfl⟩) | (rfl | ⟨index, rfl⟩) | isFault | ⟨rfl, -⟩
  · exact isEvaluationFault_of_outOfBounds missing
  · exact .charstringOperator opcode
  · exact .stackUnderflow
  · exact .transientIndex index
  · exact isEvaluationFault_of_call areRead isFault
  · exact .nestingTooDeep

/-- With subroutines that have been read, an evaluation fails with one of eight kinds of faults.
At no time are there more than 48 operands: what is pushed beyond them is dropped. Operands that
are read by their positions are there: reading them that way draws what their list does. -/
theorem evaluate_faults (subroutines : Subroutines) (areRead : subroutines.AreRead)
    (charstring : Bytes) :
    (∀ fault, (evaluate subroutines charstring).summary = .error fault →
      IsEvaluationFault fault) ∧
    (∀ count last, (ofCharstring charstring).advance? subroutines count = some last →
      last.machine.stack.size ≤ 48) ∧
    (∀ (stack : Stack) operand,
      (stack.push operand).toList = (stack.toList ++ [operand]).take 48) ∧
    (∀ stack operator, Drawing.pathAt stack operator = Drawing.path stack.toFixedList operator) ∧
    (∀ stack : Stack, stack.duplicateAt = stack.duplicate) := by
  refine ⟨?_, ?_, Stack.toList_push_eq_take, Drawing.pathAt_eq, Stack.duplicateAt_eq⟩
  · intro fault fails
    rcases exists_step_failed (summary_eq_error_iff.mp fails) with ⟨count, last, machine, -, stops⟩
    exact isEvaluationFault_of_step areRead (step_failed stops)
  · intro count last _
    exact last.machine.stack.size_le

/-- A subroutine that returns at once, and then an operator without its operand. -/
theorem evaluate_faults_underflow :
    Subroutines.AreRead { locals := some ⟨1, 1, [1, 2], [11]⟩ } ∧
      (evaluate { locals := some ⟨1, 1, [1, 2], [11]⟩ } [32, 10, 12, 21]).summary =
        .error .stackUnderflow ∧ IsEvaluationFault .stackUnderflow := by
  have areRead : Subroutines.AreRead { locals := some ⟨1, 1, [1, 2], [11]⟩ } := by
    refine ⟨⟨[0, 0], rfl⟩, ?_⟩
    rintro index ⟨⟩
    exact ⟨[0, 1, 1, 1, 2, 11], rfl⟩
  have fails : (evaluate { locals := some ⟨1, 1, [1, 2], [11]⟩ } [32, 10, 12, 21]).summary =
      .error .stackUnderflow := by
    have reached : (ofCharstring [32, 10, 12, 21]).advance?
        { locals := some ⟨1, 1, [1, 2], [11]⟩ } 3 = some _ := rfl
    have ends := (run_of_advance? reached).trans (run_of_conclusion (.act rfl rfl rfl))
    rw [summary_eq_error_iff, ends]
  exact ⟨areRead, fails, (evaluate_faults _ areRead _).1 _ fails⟩

end Charstring

end Letterform
