import Letterform.Proofs.Charstring.Run

/-!
The depth of calls. At most ten calls are open at any time. A run stops for the depth
of its calls exactly if it comes to a call that finds its subroutine while ten calls
are open; no other step gives this fault.
-/

namespace Letterform.Charstring

open Cff (Fault nestingLimit)
open Charstring.Computation

variable {subroutines : Subroutines}

theorem Transition.callers_le {before after : Configuration}
    (transition : Transition subroutines before after)
    (bound : before.callers.length ≤ nestingLimit) : after.callers.length ≤ nestingLimit := by
  cases transition with
  | exhaust | «return» => exact Nat.le_of_succ_le bound
  | operand | act | mask => exact bound
  | call token resolved shallow => exact shallow

namespace Configuration

theorem advance?_callers_le {count : Nat} {charstring : Bytes} {last : Configuration}
    (reached : (ofCharstring charstring).advance? subroutines count = some last) :
    last.callers.length ≤ nestingLimit := by
  have start : (ofCharstring charstring).callers.length ≤ nestingLimit := Nat.zero_le _
  apply invariant_advance? _ start reached
  intro before after transition
  exact transition.callers_le

def Calls (subroutines : Subroutines) (configuration : Configuration) : Prop :=
  ∃ scope next callee,
    Token.decoder.run configuration.cursor = (.ok (.operator (.call scope)), next) ∧
      subroutines.callee scope configuration.machine.stack = .ok callee

def IsStepFault (subroutines : Subroutines) (configuration : Configuration) (fault : Fault) :
    Prop :=
  Token.IsFault fault ∨ IsOperandFault fault ∨ subroutines.IsCallFault fault ∨
    fault = .nestingTooDeep ∧ nestingLimit ≤ configuration.callers.length ∧
      configuration.Calls subroutines

theorem after_failed {α : Type} {action : Action α} {before last : Machine} {fault : Fault}
    {next : α → Machine → Progress} (fails : FailsWith IsOperandFault action)
    (equal : Configuration.after action before next = .failed fault last) :
    IsOperandFault fault ∨ ∃ value after, next value after = .failed fault last := by
  simp only [Configuration.after] at equal
  split at equal
  · exact .inr ⟨_, _, equal⟩
  · next failed =>
      cases equal
      exact .inl (fails _ _ _ failed)

theorem perform_failed {operator : Operator} {cursor next : Cursor} {callers : List Cursor}
    {machine last : Machine} {fault : Fault}
    (token : Token.decoder.run cursor = (.ok (.operator operator), next))
    (equal : perform subroutines operator next callers machine = .failed fault last) :
    IsStepFault subroutines ⟨cursor, callers, machine⟩ fault := by
  have operandFault {action : Action Unit} (fails : FailsWith IsOperandFault action)
      (equal : Configuration.after action machine
        (fun _ after => .running ⟨next, callers, after⟩) = .failed fault last) :
      IsStepFault subroutines ⟨cursor, callers, machine⟩ fault := by
    rcases after_failed fails equal with isFault | ⟨_, _, equal⟩
    · exact .inr (.inl isFault)
    · cases equal
  cases operator with
  | stems axis => exact operandFault (Action.stems_failsWith axis) equal
  | move operator => exact operandFault (Action.move_failsWith operator) equal
  | path operator => exact operandFault (Action.path_failsWith operator) equal
  | arithmetic operator => exact operandFault (Action.arithmetic_failsWith operator) equal
  | ignored operator => exact operandFault (Action.ignore_failsWith operator) equal
  | mask kind =>
      rcases after_failed (Action.stems_failsWith .vertical) equal with
        isFault | ⟨_, counted, equal⟩
      · exact .inr (.inl isFault)
      · simp only [takeMask] at equal
        split at equal
        · rcases after_failed (Action.emit_failsWith _) equal with isFault | ⟨_, _, equal⟩
          · exact .inr (.inl isFault)
          · cases equal
        · next missing =>
            cases equal
            rcases Decoder.FailsWith.takeBytes _ _ _ _ missing with ⟨offset, rfl⟩
            exact .inl (.inl ⟨offset, rfl⟩)
  | call scope =>
      simp only [perform] at equal
      split at equal
      · next resolved =>
          simp only [enter] at equal
          split at equal
          · next deep =>
              cases equal
              exact .inr (.inr (.inr ⟨rfl, deep, scope, next, _, token, resolved⟩))
          · cases equal
      · next missing =>
          cases equal
          exact .inr (.inr (.inl (Subroutines.isCallFault_of_callee missing)))
  | «return» => cases callers <;> cases equal
  | endCharacter =>
      rcases after_failed Action.endCharacter_failsWith equal with isFault | ⟨_, _, equal⟩
      · exact .inr (.inl isFault)
      · cases equal

theorem step_failed {configuration : Configuration} {machine : Machine} {fault : Fault}
    (equal : configuration.step subroutines = .failed fault machine) :
    IsStepFault subroutines configuration fault := by
  rcases configuration with ⟨cursor, callers, before⟩
  simp only [step] at equal
  split at equal
  · cases callers <;> cases equal
  · split at equal
    · next unread =>
        cases equal
        exact .inl (Token.decoder_isRegular.fails _ _ _ unread)
    · cases equal
    · next token => exact perform_failed token equal

theorem not_nestingTooDeep (subroutines : Subroutines) :
    ¬Token.IsFault .nestingTooDeep ∧ ¬IsOperandFault .nestingTooDeep ∧
      ¬subroutines.IsCallFault .nestingTooDeep := by
  simp [Token.IsFault, IsOperandFault, Subroutines.IsCallFault, Cff.Index.IsFault,
    Fault.IsOutOfBounds, Fault.outOfBounds]

/-- Only a call that finds its subroutine stops a run for its depth. -/
theorem step_nestingTooDeep_iff {configuration : Configuration} :
    (∃ machine, configuration.step subroutines = .failed .nestingTooDeep machine) ↔
      nestingLimit ≤ configuration.callers.length ∧ configuration.Calls subroutines := by
  constructor
  · rintro ⟨machine, equal⟩
    rcases not_nestingTooDeep subroutines with ⟨notToken, notOperand, notCall⟩
    rcases step_failed equal with isFault | isFault | isFault | ⟨-, deep, calls⟩
    · exact absurd isFault notToken
    · exact absurd isFault notOperand
    · exact absurd isFault notCall
    · exact ⟨deep, calls⟩
  · rcases configuration with ⟨cursor, callers, machine⟩
    rintro ⟨deep, scope, next, ⟨body, stack⟩, token, resolved⟩
    have deep : nestingLimit ≤ callers.length := deep
    refine ⟨{ machine with stack }, ?_⟩
    rw [step_of_operator token]
    simp only [perform, resolved, enter, deep, if_true]

theorem run_nestingTooDeep_iff {charstring : Bytes} :
    ((ofCharstring charstring).run subroutines).1 = .error .nestingTooDeep ↔
      ∃ count last, (ofCharstring charstring).advance? subroutines count = some last ∧
        last.callers.length = nestingLimit ∧ last.Calls subroutines := by
  constructor
  · intro fails
    rcases exists_step_failed fails with ⟨count, last, machine, reached, stops⟩
    rcases step_nestingTooDeep_iff.mp ⟨machine, stops⟩ with ⟨deep, calls⟩
    exact ⟨count, last, reached, Nat.le_antisymm (advance?_callers_le reached) deep, calls⟩
  · rintro ⟨count, last, reached, full, calls⟩
    rcases step_nestingTooDeep_iff.mpr ⟨Nat.le_of_eq full.symm, calls⟩ with ⟨machine, stops⟩
    rw [run_of_advance? reached, run_of_failed stops]

theorem weight_positive (subroutines : Subroutines) (configuration : Configuration) :
    0 < configuration.weight subroutines := by
  have unit : 0 < (subroutines.longest + 2) ^ (nestingLimit - configuration.callers.length) :=
    Nat.pow_pos (Nat.succ_pos _)
  exact Nat.add_pos_left (Nat.mul_pos (Nat.succ_pos _) unit) _

end Configuration

open Charstring.Configuration

/-- Every evaluation ends: after fewer steps than its start weighs there is a last one, which
gives the result. At most ten calls are open all along, and the evaluation fails for their depth
exactly if it comes to a call that finds its subroutine while ten are open. -/
theorem evaluate_ends (subroutines : Subroutines) (charstring : Bytes) :
    (∃ count last result, (ofCharstring charstring).advance? subroutines count = some last ∧
      (last.step subroutines).result? = some result ∧
        evaluate subroutines charstring = .ofResult result) ∧
    (∀ count last, (ofCharstring charstring).advance? subroutines count = some last →
      count < (ofCharstring charstring).weight subroutines ∧ last.callers.length ≤ 10) ∧
    ((evaluate subroutines charstring).summary = .error .nestingTooDeep ↔
      ∃ count last, (ofCharstring charstring).advance? subroutines count = some last ∧
        last.callers.length = 10 ∧ last.Calls subroutines) := by
  refine ⟨?_, ?_, ?_⟩
  · rcases exists_last_step subroutines (ofCharstring charstring) with
      ⟨count, last, reached, ends⟩
    exact ⟨count, last, _, reached, ends, evaluate_eq_ofResult subroutines charstring⟩
  · intro count last reached
    have bound := advance?_weight reached
    have positive := last.weight_positive subroutines
    exact ⟨by omega, advance?_callers_le reached⟩
  · rw [← show nestingLimit = 10 from rfl, ← run_nestingTooDeep_iff, evaluate_eq_ofResult]
    simp only [Evaluation.ofResult]
    cases (run subroutines (ofCharstring charstring)).1 with
    | ok ending =>
        constructor
        · intro impossible
          cases impossible
        · intro impossible
          cases impossible
    | error fault => simp [Except.map]

/-- A subroutine that calls itself is stopped when it has called itself ten times. -/
theorem evaluate_ends_at_selfCall :
    (evaluate { locals := some ⟨1, 1, [1, 3], [32, 10]⟩ } [32, 10]).summary =
      .error .nestingTooDeep :=
  (evaluate_ends _ _).2.2.mpr ⟨21, _, rfl, rfl, .locals, _, _, rfl, rfl⟩

end Letterform.Charstring
