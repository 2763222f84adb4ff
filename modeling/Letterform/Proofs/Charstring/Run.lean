import Letterform.Proofs.Charstring.Faults

/-!
Runs of charstrings step by step. `Transition` lists everything that a step can do
when the run goes on, and `Configuration.advance?` repeats steps. A run ends after no
more steps than its start weighs, and what it gives is what its last step gives.
-/

namespace Letterform.Charstring

open Cff (Fault nestingLimit)

def Operator.action? : Operator → Option (Action Unit)
  | .stems axis => some (Action.stems axis)
  | .move operator => some (Action.move operator)
  | .path operator => some (Action.path operator)
  | .arithmetic operator => some (Action.arithmetic operator)
  | .ignored operator => some (Action.ignore operator)
  | .mask _ | .call _ | .return | .endCharacter => none

/-- A step after which the run goes on. -/
inductive Transition (subroutines : Subroutines) : Configuration → Configuration → Prop
  /-- A subroutine has no bytes left. -/
  | exhaust {cursor caller : Cursor} {callers : List Cursor} {machine : Machine}
      (exhausted : cursor.rest = []) :
      Transition subroutines ⟨cursor, caller :: callers, machine⟩ ⟨caller, callers, machine⟩
  | operand {cursor next : Cursor} {callers : List Cursor} {machine : Machine} {operand : Operand}
      (token : Token.decoder.run cursor = (.ok (.operand operand), next)) :
      Transition subroutines ⟨cursor, callers, machine⟩
        ⟨next, callers, { machine with stack := machine.stack.push operand }⟩
  | act {cursor next : Cursor} {callers : List Cursor} {before after : Machine}
      {operator : Operator} {action : Action Unit}
      (token : Token.decoder.run cursor = (.ok (.operator operator), next))
      (acts : operator.action? = some action)
      (performed : action.run before = (.ok (), after)) :
      Transition subroutines ⟨cursor, callers, before⟩ ⟨next, callers, after⟩
  | mask {cursor next last : Cursor} {callers : List Cursor} {before counted after : Machine}
      {kind : MaskKind} {bytes : Bytes}
      (token : Token.decoder.run cursor = (.ok (.operator (.mask kind)), next))
      (performed : (Action.stems .vertical).run before = (.ok (), counted))
      (taken : (Decoder.takeBytes (Action.maskLength counted)).run next = (.ok bytes, last))
      (emitted : (Action.emit (.mask kind bytes)).run counted = (.ok (), after)) :
      Transition subroutines ⟨cursor, callers, before⟩ ⟨last, callers, after⟩
  | call {cursor next : Cursor} {callers : List Cursor} {machine : Machine}
      {scope : SubroutineScope} {body : Bytes} {stack : Stack}
      (token : Token.decoder.run cursor = (.ok (.operator (.call scope)), next))
      (resolved : subroutines.callee scope machine.stack = .ok (body, stack))
      (shallow : callers.length < nestingLimit) :
      Transition subroutines ⟨cursor, callers, machine⟩
        ⟨.ofBytes body, next :: callers, { machine with stack }⟩
  | return {cursor next caller : Cursor} {callers : List Cursor} {machine : Machine}
      (token : Token.decoder.run cursor = (.ok (.operator .return), next)) :
      Transition subroutines ⟨cursor, caller :: callers, machine⟩ ⟨caller, callers, machine⟩

theorem Token.decoder_advances : Token.decoder.Advances :=
  .bind (.mapFault .read _) _

theorem Token.decoder_nonempty {cursor next : Cursor} {token : Token}
    (equal : Token.decoder.run cursor = (.ok token, next)) : cursor.rest ≠ [] := by
  intro empty
  have shorter := Token.decoder_advances _ _ _ equal
  rw [empty] at shorter
  exact Nat.not_lt_zero _ shorter

namespace Configuration

variable {subroutines : Subroutines}

theorem after_ok {α : Type} {action : Action α} {before after : Machine} {value : α}
    (performed : action.run before = (.ok value, after)) (next : α → Machine → Progress) :
    Configuration.after action before next = next value after := by
  simp only [Configuration.after, performed]

theorem step_of_empty {cursor : Cursor} {callers : List Cursor} {machine : Machine}
    (empty : cursor.rest = []) :
    step subroutines ⟨cursor, callers, machine⟩ = leave machine callers := by
  simp only [step, empty, List.isEmpty_nil, if_true]

theorem step_of_operand {cursor next : Cursor} {callers : List Cursor} {machine : Machine}
    {operand : Operand} (token : Token.decoder.run cursor = (.ok (.operand operand), next)) :
    step subroutines ⟨cursor, callers, machine⟩ =
      .running ⟨next, callers, { machine with stack := machine.stack.push operand }⟩ := by
  have nonempty : cursor.rest.isEmpty = false := by simpa using Token.decoder_nonempty token
  simp only [step, nonempty, token, Bool.false_eq_true, if_false]

theorem step_of_operator {cursor next : Cursor} {callers : List Cursor} {machine : Machine}
    {operator : Operator} (token : Token.decoder.run cursor = (.ok (.operator operator), next)) :
    step subroutines ⟨cursor, callers, machine⟩ =
      perform subroutines operator next callers machine := by
  have nonempty : cursor.rest.isEmpty = false := by simpa using Token.decoder_nonempty token
  simp only [step, nonempty, token, Bool.false_eq_true, if_false]

theorem perform_of_action {operator : Operator} {action : Action Unit}
    (acts : operator.action? = some action) (cursor : Cursor) (callers : List Cursor)
    (machine : Machine) :
    perform subroutines operator cursor callers machine =
      Configuration.after action machine fun _ after => .running ⟨cursor, callers, after⟩ := by
  cases operator with
  | stems _ | move _ | path _ | arithmetic _ | ignored _ =>
      cases acts
      rfl
  | mask _ | call _ | «return» | endCharacter => cases acts

theorem step_of_transition {before after : Configuration}
    (transition : Transition subroutines before after) :
    before.step subroutines = .running after := by
  cases transition with
  | exhaust exhausted => exact step_of_empty exhausted
  | operand token => exact step_of_operand token
  | act token acts performed =>
      rw [step_of_operator token, perform_of_action acts, after_ok performed]
  | mask token performed taken emitted =>
      rw [step_of_operator token]
      simp only [perform, after_ok performed, takeMask, taken, after_ok emitted]
  | call token resolved shallow =>
      rw [step_of_operator token]
      simp only [perform, resolved, enter, Nat.not_le.mpr shallow, if_false]
  | «return» token =>
      rw [step_of_operator token]
      rfl

theorem exists_run_of_after {α : Type} {action : Action α} {machine : Machine}
    {next : α → Machine → Progress} {configuration : Configuration}
    (equal : Configuration.after action machine next = .running configuration) :
    ∃ value after, action.run machine = (.ok value, after) ∧
      next value after = .running configuration := by
  simp only [Configuration.after] at equal
  split at equal
  · next value after performed => exact ⟨value, after, performed, equal⟩
  · cases equal

theorem transition_of_action {operator : Operator} {action : Action Unit}
    {cursor next : Cursor} {callers : List Cursor} {machine : Machine} {after : Configuration}
    (token : Token.decoder.run cursor = (.ok (.operator operator), next))
    (acts : operator.action? = some action)
    (equal : perform subroutines operator next callers machine = .running after) :
    Transition subroutines ⟨cursor, callers, machine⟩ after := by
  rw [perform_of_action acts] at equal
  rcases exists_run_of_after equal with ⟨_, _, performed, equal⟩
  cases equal
  exact .act token acts performed

theorem transition_of_perform {operator : Operator} {cursor next : Cursor}
    {callers : List Cursor} {machine : Machine} {after : Configuration}
    (token : Token.decoder.run cursor = (.ok (.operator operator), next))
    (equal : perform subroutines operator next callers machine = .running after) :
    Transition subroutines ⟨cursor, callers, machine⟩ after := by
  cases operator with
  | stems _ | move _ | path _ | arithmetic _ | ignored _ =>
      exact transition_of_action token rfl equal
  | mask kind =>
      simp only [perform] at equal
      rcases exists_run_of_after equal with ⟨_, counted, performed, equal⟩
      simp only [takeMask] at equal
      split at equal
      · next taken =>
          rcases exists_run_of_after equal with ⟨_, _, emitted, equal⟩
          cases equal
          exact .mask token performed taken emitted
      · cases equal
  | call scope =>
      simp only [perform] at equal
      split at equal
      · next resolved =>
          simp only [enter] at equal
          split at equal
          · cases equal
          · next shallow =>
              cases equal
              exact .call token resolved (Nat.lt_of_not_le shallow)
      · cases equal
  | «return» =>
      cases callers with
      | nil => cases equal
      | cons caller callers =>
          cases equal
          exact .return token
  | endCharacter =>
      simp only [perform] at equal
      rcases exists_run_of_after equal with ⟨_, _, _, equal⟩
      cases equal

theorem transition_of_step {before after : Configuration}
    (equal : before.step subroutines = .running after) :
    Transition subroutines before after := by
  rcases before with ⟨cursor, callers, machine⟩
  by_cases empty : cursor.rest = []
  · rw [step_of_empty empty] at equal
    cases callers with
    | nil => cases equal
    | cons caller callers =>
        cases equal
        exact .exhaust empty
  · cases found : Token.decoder.run cursor with
    | mk result next =>
        cases result with
        | error fault =>
            have nonempty : cursor.rest.isEmpty = false := by simpa using empty
            simp only [step, nonempty, found, Bool.false_eq_true, if_false] at equal
            cases equal
        | ok token =>
            cases token with
            | operand operand =>
                rw [step_of_operand found] at equal
                cases equal
                exact .operand found
            | operator operator =>
                rw [step_of_operator found] at equal
                exact transition_of_perform found equal

/-! Repeated steps. -/

def ofCharstring (charstring : Bytes) : Configuration := { cursor := .ofBytes charstring }

def advance? (subroutines : Subroutines) : (count : Nat) → Configuration → Option Configuration
  | 0, configuration => some configuration
  | count + 1, configuration => match configuration.step subroutines with
    | .running next => next.advance? subroutines count
    | _ => none

theorem advance?_succ {count : Nat} {first last : Configuration} :
    first.advance? subroutines (count + 1) = some last ↔
      ∃ next, Transition subroutines first next ∧ next.advance? subroutines count = some last := by
  simp only [advance?]
  constructor
  · intro equal
    split at equal
    · next step => exact ⟨_, transition_of_step step, equal⟩
    · cases equal
  · rintro ⟨next, transition, equal⟩
    simp only [step_of_transition transition, equal]

theorem advance?_add (subroutines : Subroutines) (count more : Nat) (first : Configuration) :
    first.advance? subroutines (count + more) =
      (first.advance? subroutines count).bind (advance? subroutines more) := by
  induction count generalizing first with
  | zero =>
      rw [Nat.zero_add]
      rfl
  | succ count induction =>
      rw [Nat.add_right_comm, advance?, advance?]
      split
      · exact induction _
      · rfl

theorem advance?_succ_last {count : Nat} {first last : Configuration} :
    first.advance? subroutines (count + 1) = some last ↔
      ∃ before, first.advance? subroutines count = some before ∧
        Transition subroutines before last := by
  rw [advance?_add, Option.bind_eq_some_iff]
  constructor
  · rintro ⟨before, reached, step⟩
    rcases advance?_succ.mp step with ⟨next, transition, same⟩
    cases same
    exact ⟨before, reached, transition⟩
  · rintro ⟨before, reached, transition⟩
    exact ⟨before, reached, advance?_succ.mpr ⟨last, transition, rfl⟩⟩

/-- What holds at the start and is kept by every step holds all along a run. -/
theorem invariant_advance? {holds : Configuration → Prop}
    (keeps : ∀ before after, Transition subroutines before after → holds before → holds after)
    {count : Nat} {first last : Configuration} (start : holds first)
    (reached : first.advance? subroutines count = some last) : holds last := by
  induction count generalizing first with
  | zero =>
      cases reached
      exact start
  | succ count induction =>
      rcases advance?_succ.mp reached with ⟨next, transition, reached⟩
      exact induction (keeps _ _ transition start) reached

theorem advance?_weight {count : Nat} {first last : Configuration}
    (reached : first.advance? subroutines count = some last) :
    count + last.weight subroutines ≤ first.weight subroutines := by
  induction count generalizing first with
  | zero =>
      cases reached
      exact Nat.le_of_eq (Nat.zero_add _)
  | succ count induction =>
      rcases advance?_succ.mp reached with ⟨next, transition, reached⟩
      have lighter := step_lighter (step_of_transition transition)
      have bound := induction reached
      omega

/-! What a run gives. -/

theorem run_of_transition {before after : Configuration}
    (transition : Transition subroutines before after) :
    before.run subroutines = after.run subroutines := by
  rw [run]
  split
  · next progress =>
      rw [step_of_transition transition] at progress
      cases progress
      rfl
  · next progress =>
      rw [step_of_transition transition] at progress
      cases progress
  · next progress =>
      rw [step_of_transition transition] at progress
      cases progress

theorem run_of_advance? {count : Nat} {first last : Configuration}
    (reached : first.advance? subroutines count = some last) :
    first.run subroutines = last.run subroutines := by
  induction count generalizing first with
  | zero =>
      cases reached
      rfl
  | succ count induction =>
      rcases advance?_succ.mp reached with ⟨next, transition, reached⟩
      rw [run_of_transition transition, induction reached]

end Configuration

def Progress.result? : Progress → Option (Except Fault Ending × Machine)
  | .running _ => none
  | .ended ending machine => some (.ok ending, machine)
  | .failed fault machine => some (.error fault, machine)

def Evaluation.ofResult (result : Except Fault Ending × Machine) : Evaluation where
  commands := result.2.pen.commands.toList
  summary := result.1.map fun _ => result.2.summary

theorem evaluate_eq_ofResult (subroutines : Subroutines) (charstring : Bytes) :
    evaluate subroutines charstring =
      .ofResult (Configuration.run subroutines (.ofCharstring charstring)) :=
  rfl

theorem summary_eq_error_iff {subroutines : Subroutines} {charstring : Bytes} {fault : Fault} :
    (evaluate subroutines charstring).summary = .error fault ↔
      (Configuration.run subroutines (.ofCharstring charstring)).1 = .error fault := by
  rw [evaluate_eq_ofResult]
  simp only [Evaluation.ofResult]
  cases (Configuration.run subroutines (.ofCharstring charstring)).1 with
  | ok ending => exact iff_of_false nofun nofun
  | error other => simp only [Except.map, Except.error.injEq]

namespace Configuration

variable {subroutines : Subroutines}

theorem run_of_result {configuration : Configuration} {result : Except Fault Ending × Machine}
    (ends : (configuration.step subroutines).result? = some result) :
    configuration.run subroutines = result := by
  rw [run]
  split
  · next progress =>
      rw [progress] at ends
      cases ends
  · next progress =>
      rw [progress] at ends
      cases ends
      rfl
  · next progress =>
      rw [progress] at ends
      cases ends
      rfl

theorem run_of_ended {configuration : Configuration} {ending : Ending} {machine : Machine}
    (equal : configuration.step subroutines = .ended ending machine) :
    configuration.run subroutines = (.ok ending, machine) :=
  run_of_result (by rw [equal]; rfl)

theorem run_of_failed {configuration : Configuration} {fault : Fault} {machine : Machine}
    (equal : configuration.step subroutines = .failed fault machine) :
    configuration.run subroutines = (.error fault, machine) :=
  run_of_result (by rw [equal]; rfl)

/-- Every run comes to a last step, and gives what that step gives. -/
theorem exists_last_step (subroutines : Subroutines) (first : Configuration) :
    ∃ count last, first.advance? subroutines count = some last ∧
      (last.step subroutines).result? = some (first.run subroutines) := by
  induction first using run.induct subroutines with
  | case1 first next progress induction =>
      rcases induction with ⟨count, last, reached, ends⟩
      have transition := transition_of_step progress
      refine ⟨count + 1, last, advance?_succ.mpr ⟨next, transition, reached⟩, ?_⟩
      rw [run_of_transition transition, ends]
  | case2 first ending machine progress =>
      refine ⟨0, first, rfl, ?_⟩
      rw [run_of_ended progress, progress]
      rfl
  | case3 first fault machine progress =>
      refine ⟨0, first, rfl, ?_⟩
      rw [run_of_failed progress, progress]
      rfl

theorem exists_step_failed {first : Configuration} {fault : Fault}
    (fails : (first.run subroutines).1 = .error fault) :
    ∃ count last machine, first.advance? subroutines count = some last ∧
      last.step subroutines = .failed fault machine := by
  rcases exists_last_step subroutines first with ⟨count, last, reached, ends⟩
  generalize first.run subroutines = result at fails ends
  cases step : last.step subroutines with
  | running next =>
      rw [step] at ends
      cases ends
  | ended ending machine =>
      rw [step] at ends
      cases ends
      cases fails
  | failed other machine =>
      rw [step] at ends
      cases ends
      cases fails
      exact ⟨count, last, machine, reached, step⟩

end Configuration

end Letterform.Charstring
