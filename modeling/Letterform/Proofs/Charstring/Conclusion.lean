import Letterform.Proofs.Charstring.Effect
import Letterform.Proofs.Charstring.Run

/-!
What the steps of a run give. A step that goes on draws lines and curves, gives stems,
a mask or a move. `Conclusion` lists everything that the last step can do, as
`Transition` does for the steps before it.
-/

namespace Letterform.Charstring

open Cff (Fault nestingLimit)

variable {subroutines : Subroutines}

/-! Effects on what is given. -/

namespace Machine

structure Extends (before after : Machine) : Prop where
  commands : ∃ segments, after.commands = before.commands ++ segments ∧
    ∀ command ∈ segments, command.IsSegment
  isOpen : after.isOpen = before.isOpen
  stemCount : ∀ axis, after.stemCount axis = before.stemCount axis

/-- How an operator other than a mask changes what has been given. -/
inductive Effect (before : Machine) : Machine → Prop
  | draw {after : Machine} (drawn : before.Extends after) : Effect before after
  | stems (axis : Axis) (isPresent : Bool) :
      Effect before ((before.settle isPresent).takeStems axis)
  | move (isPresent : Bool) (target : Point Fixed) :
      Effect before ((before.settle isPresent).openSubpath.moveTo target)

theorem extends_withWorkspace (machine : Machine) (workspace : Workspace) :
    machine.Extends (machine.withWorkspace workspace) where
  commands := ⟨[], (List.append_nil _).symm, nofun⟩
  isOpen := rfl
  stemCount _ := rfl

theorem extends_refl (machine : Machine) : machine.Extends machine :=
  machine.extends_withWorkspace machine.workspace

theorem extends_withStack (machine : Machine) (stack : Stack) :
    machine.Extends { machine with stack } :=
  machine.extends_withWorkspace { machine.workspace with stack }

theorem extends_arithmetic (operator : ArithmeticOperator) (machine : Machine) :
    machine.Extends ((Action.arithmetic operator).run machine).2 := by
  rw [(Action.IsLocal.arithmetic operator).after_eq machine]
  exact machine.extends_withWorkspace _

theorem extends_ignore (operator : IgnoredOperator) (machine : Machine) :
    machine.Extends ((Action.ignore operator).run machine).2 where
  commands := ⟨[], (List.append_nil _).symm, nofun⟩
  isOpen := rfl
  stemCount _ := rfl

theorem extends_path (operator : PathOperator) (machine : Machine) :
    machine.Extends ((Action.path operator).run machine).2 := by
  have gives := Drawing.GivesSegments.path machine.stack.toFixedList operator machine.pen
  rw [Action.path_run_drawing]
  generalize (Drawing.path machine.stack.toFixedList operator).run machine.pen = result at gives
  rcases result with ⟨_ | _, pen⟩
  · exact ⟨gives, rfl, fun _ => rfl⟩
  · exact ⟨gives, rfl, fun _ => rfl⟩

theorem effect_of_action {operator : Operator} {action : Action Unit} {before after : Machine}
    (acts : operator.action? = some action) (performed : action.run before = (.ok (), after)) :
    before.Effect after := by
  cases operator with
  | stems axis =>
      cases acts
      rw [Action.stems_run] at performed
      cases performed
      exact .stems axis _
  | move operator =>
      cases acts
      rw [Action.move_run] at performed
      simp only at performed
      split at performed
      · cases performed
        exact .move _ _
      · cases performed
  | path operator =>
      cases acts
      have drawn := extends_path operator before
      rw [performed] at drawn
      exact .draw drawn
  | arithmetic operator =>
      cases acts
      have drawn := extends_arithmetic operator before
      rw [performed] at drawn
      exact .draw drawn
  | ignored operator =>
      cases acts
      cases performed
      exact .draw (extends_ignore operator before)
  | mask _ | call _ | «return» | endCharacter => cases acts

/-- A move that fails has opened its subpath all the same. -/
theorem extends_or_open_of_action {operator : Operator} {action : Action Unit}
    {before after : Machine} {fault : Fault} (acts : operator.action? = some action)
    (failed : action.run before = (.error fault, after)) :
    before.Extends after ∨ ∃ isPresent, after = (before.settle isPresent).openSubpath := by
  cases operator with
  | stems axis =>
      cases acts
      rw [Action.stems_run] at failed
      cases failed
  | move operator =>
      cases acts
      rw [Action.move_run] at failed
      simp only at failed
      split at failed
      · cases failed
      · cases failed
        exact .inr ⟨_, rfl⟩
  | path operator =>
      cases acts
      have drawn := extends_path operator before
      rw [failed] at drawn
      exact .inl drawn
  | arithmetic operator =>
      cases acts
      have drawn := extends_arithmetic operator before
      rw [failed] at drawn
      exact .inl drawn
  | ignored operator =>
      cases acts
      cases failed
  | mask _ | call _ | «return» | endCharacter => cases acts

end Machine

structure MaskStep (kind : MaskKind) (bytes : Bytes) (before : Configuration)
    (counted : Machine) (after : Configuration) : Prop where
  counts : ∃ isPresent, counted = (before.machine.settle isPresent).takeStems .vertical
  takes : ∃ next, Token.decoder.run before.cursor = (.ok (.operator (.mask kind)), next) ∧
    (Decoder.takeBytes (Action.maskLength counted)).run next = (.ok bytes, after.cursor)
  callers : after.callers = before.callers
  machine : after.machine = counted.give [.mask kind bytes]

theorem Transition.maskStep {before after : Configuration} {kind : MaskKind} {next : Cursor}
    (transition : Transition subroutines before after)
    (token : Token.decoder.run before.cursor = (.ok (.operator (.mask kind)), next)) :
    ∃ bytes counted, MaskStep kind bytes before counted after := by
  cases transition with
  | exhaust exhausted => exact absurd exhausted (Token.decoder_nonempty token)
  | operand other | call other | «return» other =>
      rw [other] at token
      cases token
  | act other acts =>
      rw [other] at token
      cases token
      cases acts
  | mask other performed taken emitted =>
      rw [other] at token
      cases token
      rw [Action.stems_run] at performed
      cases performed
      cases emitted
      exact ⟨_, _, ⟨_, rfl⟩, ⟨_, other, taken⟩, rfl, rfl⟩

theorem Transition.effect_or_mask {before after : Configuration}
    (transition : Transition subroutines before after) :
    before.machine.Effect after.machine ∨
      ∃ kind bytes counted, MaskStep kind bytes before counted after := by
  have step := transition
  cases transition with
  | exhaust | «return» => exact .inl (.draw (Machine.extends_refl _))
  | operand | call => exact .inl (.draw (Machine.extends_withStack _ _))
  | act token acts performed => exact .inl (Machine.effect_of_action acts performed)
  | mask token => exact .inr ⟨_, step.maskStep token⟩

/-! Last steps. -/

/-- A step that ends the run, and what the run gives. -/
inductive Conclusion (subroutines : Subroutines) :
    Configuration → Except Fault Ending × Machine → Prop
  | exhaust {cursor : Cursor} {machine : Machine} (exhausted : cursor.rest = []) :
      Conclusion subroutines ⟨cursor, [], machine⟩ (.ok .exhausted, machine)
  | return {cursor next : Cursor} {machine : Machine}
      (token : Token.decoder.run cursor = (.ok (.operator .return), next)) :
      Conclusion subroutines ⟨cursor, [], machine⟩ (.ok .exhausted, machine)
  | endCharacter {cursor next : Cursor} {callers : List Cursor} {before after : Machine}
      (token : Token.decoder.run cursor = (.ok (.operator .endCharacter), next))
      (performed : Action.endCharacter.run before = (.ok (), after)) :
      Conclusion subroutines ⟨cursor, callers, before⟩ (.ok .endCharacter, after)
  | unread {cursor next : Cursor} {callers : List Cursor} {machine : Machine} {fault : Fault}
      (nonempty : cursor.rest ≠ []) (unread : Token.decoder.run cursor = (.error fault, next)) :
      Conclusion subroutines ⟨cursor, callers, machine⟩ (.error fault, machine)
  | act {cursor next : Cursor} {callers : List Cursor} {before after : Machine} {fault : Fault}
      {operator : Operator} {action : Action Unit}
      (token : Token.decoder.run cursor = (.ok (.operator operator), next))
      (acts : operator.action? = some action)
      (failed : action.run before = (.error fault, after)) :
      Conclusion subroutines ⟨cursor, callers, before⟩ (.error fault, after)
  | mask {cursor next last : Cursor} {callers : List Cursor} {before counted : Machine}
      {kind : MaskKind} {error : ReadError}
      (token : Token.decoder.run cursor = (.ok (.operator (.mask kind)), next))
      (performed : (Action.stems .vertical).run before = (.ok (), counted))
      (missing : (Decoder.takeBytes (Action.maskLength counted)).run next = (.error error, last)) :
      Conclusion subroutines ⟨cursor, callers, before⟩ (.error (.read error), counted)
  | unresolved {cursor next : Cursor} {callers : List Cursor} {machine : Machine}
      {scope : SubroutineScope} {fault : Fault}
      (token : Token.decoder.run cursor = (.ok (.operator (.call scope)), next))
      (unresolved : subroutines.callee scope machine.stack = .error fault) :
      Conclusion subroutines ⟨cursor, callers, machine⟩ (.error fault, machine)
  | deep {cursor next : Cursor} {callers : List Cursor} {machine : Machine}
      {scope : SubroutineScope} {body : Bytes} {stack : Stack}
      (token : Token.decoder.run cursor = (.ok (.operator (.call scope)), next))
      (resolved : subroutines.callee scope machine.stack = .ok (body, stack))
      (deep : nestingLimit ≤ callers.length) :
      Conclusion subroutines ⟨cursor, callers, machine⟩
        (.error .nestingTooDeep, { machine with stack })

namespace Configuration

theorem conclusion_of_action {operator : Operator} {action : Action Unit}
    {cursor next : Cursor} {callers : List Cursor} {machine : Machine}
    {result : Except Fault Ending × Machine}
    (token : Token.decoder.run cursor = (.ok (.operator operator), next))
    (acts : operator.action? = some action)
    (ends : (perform subroutines operator next callers machine).result? = some result) :
    Conclusion subroutines ⟨cursor, callers, machine⟩ result := by
  rw [perform_of_action acts, Configuration.after] at ends
  split at ends
  · cases ends
  · next failed =>
      cases ends
      exact .act token acts failed

theorem conclusion_of_perform {operator : Operator} {cursor next : Cursor}
    {callers : List Cursor} {machine : Machine} {result : Except Fault Ending × Machine}
    (token : Token.decoder.run cursor = (.ok (.operator operator), next))
    (ends : (perform subroutines operator next callers machine).result? = some result) :
    Conclusion subroutines ⟨cursor, callers, machine⟩ result := by
  cases operator with
  | stems _ | move _ | path _ | arithmetic _ | ignored _ =>
      exact conclusion_of_action token rfl ends
  | mask kind =>
      have performed := Action.stems_run .vertical machine
      simp only [perform, after_ok performed, takeMask] at ends
      split at ends
      · cases ends
      · next missing =>
          cases ends
          exact .mask token performed missing
  | call scope =>
      simp only [perform] at ends
      split at ends
      · next resolved =>
          simp only [enter] at ends
          split at ends
          · next deep =>
              cases ends
              exact .deep token resolved deep
          · cases ends
      · next unresolved =>
          cases ends
          exact .unresolved token unresolved
  | «return» =>
      cases callers with
      | nil =>
          cases ends
          exact .return token
      | cons caller callers => cases ends
  | endCharacter =>
      have performed := Action.endCharacter_run machine
      simp only [perform, after_ok performed] at ends
      cases ends
      exact .endCharacter token performed

theorem conclusion_of_step {last : Configuration} {result : Except Fault Ending × Machine}
    (ends : (last.step subroutines).result? = some result) :
    Conclusion subroutines last result := by
  rcases last with ⟨cursor, callers, machine⟩
  by_cases empty : cursor.rest = []
  · rw [step_of_empty empty] at ends
    cases callers with
    | nil =>
        cases ends
        exact .exhaust empty
    | cons caller callers => cases ends
  · rcases found : Token.decoder.run cursor with ⟨fault | ⟨operand⟩ | ⟨operator⟩, next⟩
    · have nonempty : cursor.rest.isEmpty = false := by simpa using empty
      simp only [step, nonempty, found, Bool.false_eq_true, if_false] at ends
      cases ends
      exact .unread empty found
    · rw [step_of_operand found] at ends
      cases ends
    · rw [step_of_operator found] at ends
      exact conclusion_of_perform found ends

theorem step_of_conclusion {last : Configuration} {result : Except Fault Ending × Machine}
    (conclusion : Conclusion subroutines last result) :
    (last.step subroutines).result? = some result := by
  cases conclusion with
  | exhaust exhausted =>
      rw [step_of_empty exhausted]
      rfl
  | «return» token =>
      rw [step_of_operator token]
      rfl
  | endCharacter token performed =>
      rw [step_of_operator token, perform, after_ok performed]
      rfl
  | @unread cursor next callers machine fault nonempty unread =>
      have nonempty : cursor.rest.isEmpty = false := by simpa using nonempty
      simp only [step, nonempty, unread, Bool.false_eq_true, if_false]
      rfl
  | act token acts failed =>
      rw [step_of_operator token, perform_of_action acts]
      simp only [Configuration.after, failed]
      rfl
  | mask token performed missing =>
      rw [step_of_operator token]
      simp only [perform, after_ok performed, takeMask, missing]
      rfl
  | unresolved token unresolved =>
      rw [step_of_operator token]
      simp only [perform, unresolved]
      rfl
  | deep token resolved deep =>
      rw [step_of_operator token]
      simp only [perform, resolved, enter, deep, if_true]
      rfl

theorem run_of_conclusion {last : Configuration} {result : Except Fault Ending × Machine}
    (conclusion : Conclusion subroutines last result) : last.run subroutines = result :=
  run_of_result (step_of_conclusion conclusion)

theorem le_of_conclusion {first last before : Configuration}
    {result : Except Fault Ending × Machine} {total count : Nat}
    (ended : first.advance? subroutines total = some last)
    (conclusion : Conclusion subroutines last result)
    (reached : first.advance? subroutines count = some before) : count ≤ total := by
  apply Nat.le_of_not_lt
  intro beyond
  obtain ⟨more, rfl⟩ : ∃ more, count = total + (more + 1) := ⟨count - total - 1, by omega⟩
  rw [advance?_add, ended, Option.bind_some] at reached
  rcases advance?_succ.mp reached with ⟨next, transition, -⟩
  have stops := step_of_conclusion conclusion
  rw [step_of_transition transition] at stops
  cases stops

theorem exists_conclusion (subroutines : Subroutines) (first : Configuration) :
    ∃ count last, first.advance? subroutines count = some last ∧
      Conclusion subroutines last (first.run subroutines) := by
  rcases exists_last_step subroutines first with ⟨count, last, reached, ends⟩
  exact ⟨count, last, reached, conclusion_of_step ends⟩

end Configuration

end Letterform.Charstring
