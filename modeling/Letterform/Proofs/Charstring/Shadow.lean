import Letterform.Proofs.Charstring.Run
import Mathlib.Data.List.Forall2

/-!
Two runs side by side. One run shadows another if it has the same machine and the same
open frames, except that other bytes may follow in the charstring itself and that
further frames may lie below. It stays so while the first run keeps away from the
bytes that differ. Runs that differ in the positions of their cursors only give the
same result up to offsets.
-/

namespace Letterform

namespace Cursor

/-- The same bytes are ahead of both cursors, and then a tail of each one's own. -/
def Beside (tail other : Bytes) (first second : Cursor) : Prop :=
  ∃ ahead position otherPosition,
    first = { rest := ahead ++ tail, position } ∧
      second = { rest := ahead ++ other, position := otherPosition }

theorem Beside.run {ε α : Type} {decoder : Decoder ε α} (exact : decoder.IsExact)
    {tail other : Bytes} {first second next : Cursor} {value : α}
    (beside : first.Beside tail other second) (equal : decoder.run first = (.ok value, next))
    (within : tail.length ≤ next.rest.length) :
    ∃ after, decoder.run second = (.ok value, after) ∧ next.Beside tail other after := by
  rcases beside with ⟨ahead, position, otherPosition, rfl, rfl⟩
  rcases exact _ _ _ _ equal with ⟨taken, whole, reads⟩
  have isPrefix : taken <+: ahead := by
    apply List.prefix_of_prefix_length_le ⟨next.rest, whole.symm⟩ (List.prefix_append ahead tail)
    have lengths := congrArg List.length whole
    simp only [List.length_append] at lengths
    omega
  rcases isPrefix with ⟨left, rfl⟩
  rw [List.append_assoc, reads] at equal
  cases equal
  rw [List.append_assoc, reads]
  exact ⟨_, rfl, left, _, _, rfl, rfl⟩

theorem Beside.exhausted {first second : Cursor} (beside : first.Beside [] [] second)
    (exhausted : first.rest = []) : second.rest = [] := by
  rcases beside with ⟨ahead, position, otherPosition, rfl, rfl⟩
  exact exhausted

end Cursor

namespace Charstring

open Cff (Fault nestingLimit)

variable {subroutines : Subroutines} {tail other : Bytes} {below : List Cursor}

/-- The open frames of two runs, the innermost first. The tails belong to the outermost frame
of the first run; the second run has further frames below it. -/
inductive Aligned (tail other : Bytes) (below : List Cursor) :
    List Cursor → List Cursor → Prop
  | outermost {first second : Cursor} (beside : first.Beside tail other second) :
      Aligned tail other below [first] (second :: below)
  | inner {first second : Cursor} {firsts seconds : List Cursor}
      (beside : first.Beside [] [] second) (aligned : Aligned tail other below firsts seconds) :
      Aligned tail other below (first :: firsts) (second :: seconds)

namespace Aligned

theorem length {firsts seconds : List Cursor} (aligned : Aligned tail other below firsts seconds) :
    seconds.length = firsts.length + below.length := by
  induction aligned with
  | outermost beside => rw [List.length_cons, List.length_singleton, Nat.add_comm]
  | inner beside aligned induction => rw [List.length_cons, List.length_cons, induction]; omega

/-- The innermost frame reads the same in both runs, unless it is the outermost and reads
behind the start of the tail. -/
theorem run {ε α : Type} {decoder : Decoder ε α} (exact : decoder.IsExact)
    {cursor next : Cursor} {callers seconds : List Cursor} {value : α}
    (aligned : Aligned tail other below (cursor :: callers) seconds)
    (equal : decoder.run cursor = (.ok value, next))
    (within : tail.length ≤ (callers.getLastD next).rest.length) :
    ∃ second others after, seconds = second :: others ∧
      decoder.run second = (.ok value, after) ∧
        Aligned tail other below (next :: callers) (after :: others) := by
  cases aligned with
  | outermost beside =>
      rcases beside.run exact equal within with ⟨after, same, beside⟩
      exact ⟨_, _, after, rfl, same, .outermost beside⟩
  | inner beside aligned =>
      rcases beside.run exact equal (Nat.zero_le _) with ⟨after, same, beside⟩
      exact ⟨_, _, after, rfl, same, .inner beside aligned⟩

theorem pop {cursor caller : Cursor} {callers seconds : List Cursor} {second : Cursor}
    (aligned : Aligned tail other below (cursor :: caller :: callers) (second :: seconds)) :
    cursor.Beside [] [] second ∧ ∃ next others, seconds = next :: others ∧
      Aligned tail other below (caller :: callers) (next :: others) := by
  cases aligned with
  | inner beside aligned =>
      refine ⟨beside, ?_⟩
      cases aligned with
      | outermost beside => exact ⟨_, _, rfl, .outermost beside⟩
      | inner beside aligned => exact ⟨_, _, rfl, .inner beside aligned⟩

end Aligned

def Configuration.left (configuration : Configuration) : Bytes :=
  (configuration.callers.getLastD configuration.cursor).rest

theorem outermost_le {cursor next : Cursor} (callers : List Cursor)
    (shorter : next.rest.length ≤ cursor.rest.length) :
    (callers.getLastD next).rest.length ≤ (callers.getLastD cursor).rest.length := by
  cases callers with
  | nil => exact shorter
  | cons caller callers => exact Nat.le_refl _

/-- A run goes through its charstring forward only. -/
theorem Transition.left_le {before after : Configuration}
    (transition : Transition subroutines before after) :
    after.left.length ≤ before.left.length := by
  have read {cursor next : Cursor} {token : Token}
      (equal : Token.decoder.run cursor = (.ok token, next)) :
      next.rest.length ≤ cursor.rest.length :=
    Nat.le_of_lt (Token.decoder_advances _ _ _ equal)
  cases transition with
  | exhaust => simp only [Configuration.left, List.getLastD_cons, Nat.le_refl]
  | operand token | act token => exact outermost_le _ (read token)
  | @mask cursor next last callers before counted after kind bytes token _ taken =>
      have takes := (Decoder.takeBytes (Action.maskLength counted)).shortens next
      rw [taken] at takes
      exact outermost_le callers (Nat.le_trans takes (read token))
  | call token =>
      simp only [Configuration.left, List.getLastD_cons]
      exact outermost_le _ (read token)
  | «return» => simp only [Configuration.left, List.getLastD_cons, Nat.le_refl]

theorem Configuration.advance?_left_le {count : Nat} {first last : Configuration}
    (reached : first.advance? subroutines count = some last) :
    last.left.length ≤ first.left.length := by
  apply invariant_advance? _ (Nat.le_refl _) reached
  intro before after transition within
  exact Nat.le_trans transition.left_le within

structure Shadows (tail other : Bytes) (below : List Cursor) (first second : Configuration) :
    Prop where
  aligned : Aligned tail other below (first.cursor :: first.callers)
    (second.cursor :: second.callers)
  machine : second.machine = first.machine

namespace Shadows

theorem transition {first next second : Configuration}
    (shadows : Shadows tail other below first second)
    (transition : Transition subroutines first next) (within : tail.length ≤ next.left.length)
    (shallow : next.callers.length + below.length ≤ nestingLimit) :
    ∃ after, Transition subroutines second after ∧ Shadows tail other below next after := by
  rcases second with ⟨secondCursor, secondCallers, secondMachine⟩
  rcases shadows with ⟨aligned, rfl⟩
  have exact := Token.decoder_isRegular.exact
  cases transition with
  | exhaust exhausted =>
      rcases aligned.pop with ⟨beside, caller, others, rfl, outer⟩
      exact ⟨_, .exhaust (beside.exhausted exhausted), outer, rfl⟩
  | operand token =>
      rcases aligned.run exact token within with ⟨_, _, after, same, read, aligned⟩
      cases same
      exact ⟨_, .operand read, aligned, rfl⟩
  | act token acts performed =>
      rcases aligned.run exact token within with ⟨_, _, after, same, read, aligned⟩
      cases same
      exact ⟨_, .act read acts performed, aligned, rfl⟩
  | @mask cursor middle last callers before counted after kind bytes token performed taken emitted =>
      have takes := (Decoder.takeBytes (Action.maskLength counted)).shortens middle
      rw [taken] at takes
      rcases aligned.run exact token (Nat.le_trans within (outermost_le callers takes)) with
        ⟨_, _, after, same, read, aligned⟩
      cases same
      rcases aligned.run (.takeBytes _) taken within with ⟨_, _, after, same, take, aligned⟩
      cases same
      exact ⟨_, .mask read performed take emitted, aligned, rfl⟩
  | @call cursor middle callers machine scope body stack token resolved _ =>
      have withinCharstring : tail.length ≤ (callers.getLastD middle).rest.length := by
        simpa only [Configuration.left, List.getLastD_cons] using within
      rcases aligned.run exact token withinCharstring with ⟨_, _, after, same, read, aligned⟩
      cases same
      have depth := aligned.length
      simp only [List.length_cons] at depth shallow
      refine ⟨_, .call read resolved (by omega), .inner ?_ aligned, rfl⟩
      exact ⟨body, 0, 0, by simp [Cursor.ofBytes], by simp [Cursor.ofBytes]⟩
  | @«return» cursor middle caller callers machine token =>
      have withinCharstring : tail.length ≤ ((caller :: callers).getLastD middle).rest.length := by
        simpa only [Configuration.left, List.getLastD_cons] using within
      rcases aligned.run exact token withinCharstring with ⟨_, _, after, same, read, aligned⟩
      cases same
      rcases aligned.pop with ⟨-, caller, others, rfl, outer⟩
      exact ⟨_, .return read, outer, rfl⟩

theorem advance? {count : Nat} {first last second : Configuration}
    (shadows : Shadows tail other below first second)
    (reached : first.advance? subroutines count = some last)
    (within : tail.length ≤ last.left.length)
    (shallow : ∀ earlier ≤ count, ∀ middle, first.advance? subroutines earlier = some middle →
      middle.callers.length + below.length ≤ nestingLimit) :
    ∃ after, second.advance? subroutines count = some after ∧
      Shadows tail other below last after := by
  induction count generalizing first second with
  | zero =>
      cases reached
      exact ⟨second, rfl, shadows⟩
  | succ count induction =>
      rcases Configuration.advance?_succ.mp reached with ⟨next, transition, reachedNext⟩
      have reaches (earlier : Nat) :
          first.advance? subroutines (earlier + 1) = next.advance? subroutines earlier := by
        rw [Configuration.advance?, Configuration.step_of_transition transition]
      have withinNext := Nat.le_trans within (Configuration.advance?_left_le reachedNext)
      rcases shadows.transition transition withinNext (shallow 1 (by omega) next (reaches 0)) with
        ⟨secondNext, secondTransition, shadowsNext⟩
      have shallowNext (earlier : Nat) (bound : earlier ≤ count) (middle : Configuration)
          (reachedMiddle : next.advance? subroutines earlier = some middle) :
          middle.callers.length + below.length ≤ nestingLimit :=
        shallow (earlier + 1) (by omega) middle ((reaches earlier).trans reachedMiddle)
      rcases induction shadowsNext reachedNext shallowNext with ⟨after, secondReached, shadowsAfter⟩
      exact ⟨after, Configuration.advance?_succ.mpr ⟨secondNext, secondTransition, secondReached⟩,
        shadowsAfter⟩

theorem ofCharstring (front tail other : Bytes) :
    Shadows tail other [] (.ofCharstring (front ++ tail)) (.ofCharstring (front ++ other)) :=
  ⟨.outermost ⟨front, 0, 0, rfl, rfl⟩, rfl⟩

end Shadows

structure Configuration.StandsAt (configuration : Configuration) (rest : Bytes) : Prop where
  outside : configuration.callers = []
  ahead : configuration.cursor.rest = rest

/-- At the start of the tail of the charstring itself, the second run stands at its own tail
above what lies below. -/
theorem Shadows.at_tail {first second : Configuration}
    (shadows : Shadows tail other below first second) (stands : first.StandsAt tail) :
    ∃ position otherPosition, first = ⟨{ rest := tail, position }, [], first.machine⟩ ∧
      second = ⟨{ rest := other, position := otherPosition }, below, first.machine⟩ := by
  rcases first with ⟨cursor, callers, machine⟩
  rcases second with ⟨secondCursor, secondCallers, secondMachine⟩
  rcases shadows with ⟨aligned, rfl⟩
  rcases stands with ⟨rfl, atTail⟩
  cases aligned with
  | outermost beside =>
      rcases beside with ⟨ahead, position, otherPosition, rfl, rfl⟩
      have nothing : ahead = [] := List.append_left_eq_self.mp atTail
      subst nothing
      exact ⟨position, otherPosition, rfl, rfl⟩
  | inner beside aligned => cases aligned

theorem Configuration.StandsAt.left {configuration : Configuration} {rest : Bytes}
    (stands : configuration.StandsAt rest) : configuration.left = rest := by
  rcases configuration with ⟨cursor, callers, machine⟩
  rcases stands with ⟨rfl, rfl⟩
  rfl

/-! Runs at different positions. -/

structure Configuration.Agrees (first second : Configuration) : Prop where
  cursor : first.cursor.Agrees second.cursor
  callers : List.Forall₂ Cursor.Agrees first.callers second.callers
  machine : second.machine = first.machine

inductive Progress.Agrees : Progress → Progress → Prop
  | running {first second : Configuration} (agrees : first.Agrees second) :
      Agrees (.running first) (.running second)
  | ended {ending : Ending} {machine : Machine} :
      Agrees (.ended ending machine) (.ended ending machine)
  | failed {fault other : Fault} {machine : Machine} (sameKind : fault.kind = other.kind) :
      Agrees (.failed fault machine) (.failed other machine)

namespace Configuration

theorem leave_agrees {callers others : List Cursor}
    (agree : List.Forall₂ Cursor.Agrees callers others) (machine : Machine) :
    (leave machine callers).Agrees (leave machine others) := by
  cases agree with
  | nil => exact .ended
  | cons agrees agree => exact .running ⟨agrees, agree, rfl⟩

theorem after_agrees {α : Type} (action : Action α) (machine : Machine)
    {next other : α → Machine → Progress}
    (agree : ∀ value machine, (next value machine).Agrees (other value machine)) :
    (Configuration.after action machine next).Agrees
      (Configuration.after action machine other) := by
  simp only [Configuration.after]
  split
  · exact agree _ _
  · exact .failed rfl

theorem takeMask_agrees {cursor other : Cursor} {callers others : List Cursor}
    (agrees : cursor.Agrees other) (agree : List.Forall₂ Cursor.Agrees callers others)
    (kind : MaskKind) (machine : Machine) :
    (takeMask kind cursor callers machine).Agrees (takeMask kind other others machine) := by
  have same := Decoder.IsBlind.takeBytes (Action.maskLength machine) cursor other agrees
  simp only [takeMask]
  generalize (Decoder.takeBytes (Action.maskLength machine)).run cursor = result,
    (Decoder.takeBytes (Action.maskLength machine)).run other = otherResult at same
  cases same with
  | ok agreesNext => exact after_agrees _ _ fun _ _ => .running ⟨agreesNext, agree, rfl⟩
  | error sameKind => exact .failed (congrArg Fault.read sameKind)

theorem perform_agrees {cursor other : Cursor} {callers others : List Cursor}
    (agrees : cursor.Agrees other) (agree : List.Forall₂ Cursor.Agrees callers others)
    (operator : Operator) (machine : Machine) :
    (perform subroutines operator cursor callers machine).Agrees
      (perform subroutines operator other others machine) := by
  cases operator with
  | stems _ | move _ | path _ | arithmetic _ | ignored _ =>
      simp only [perform]
      exact after_agrees _ _ fun _ _ => .running ⟨agrees, agree, rfl⟩
  | mask kind => exact after_agrees _ _ fun _ machine => takeMask_agrees agrees agree kind machine
  | call scope =>
      simp only [perform]
      split
      · simp only [enter, agree.length_eq]
        split
        · exact .failed rfl
        · exact .running ⟨⟨rfl, rfl⟩, .cons agrees agree, rfl⟩
      · exact .failed rfl
  | «return» => exact leave_agrees agree machine
  | endCharacter => exact after_agrees _ _ fun _ _ => .ended

theorem step_agrees {first second : Configuration} (agrees : first.Agrees second)
    (subroutines : Subroutines) :
    (first.step subroutines).Agrees (second.step subroutines) := by
  rcases first with ⟨cursor, callers, machine⟩
  rcases second with ⟨other, others, otherMachine⟩
  rcases agrees with ⟨agrees, agree, rfl⟩
  have same := Token.decoder_isRegular.blind cursor other agrees
  have sameRest : cursor.rest = other.rest := agrees.1
  simp only [step, sameRest]
  split
  · exact leave_agrees agree _
  · generalize Token.decoder.run cursor = result, Token.decoder.run other = otherResult at same
    cases same with
    | @ok token _ _ agreesNext =>
        cases token with
        | operand operand => exact .running ⟨agreesNext, agree, rfl⟩
        | operator operator => exact perform_agrees agreesNext agree operator _
    | error sameKind => exact .failed sameKind

/-- Where the cursors stand makes no difference but to the offsets of faults. -/
theorem run_agrees {first second : Configuration} (agrees : first.Agrees second)
    (subroutines : Subroutines) :
    (first.run subroutines).1.mapError Fault.kind = (second.run subroutines).1.mapError Fault.kind ∧
      (first.run subroutines).2 = (second.run subroutines).2 := by
  induction first using run.induct subroutines generalizing second with
  | case1 first next progress induction =>
      have same := step_agrees agrees subroutines
      rw [progress] at same
      generalize found : second.step subroutines = other at same
      cases same with
      | running agreesNext =>
          rw [run_of_transition (transition_of_step progress),
            run_of_transition (transition_of_step found)]
          exact induction agreesNext
  | case2 first ending machine progress =>
      have same := step_agrees agrees subroutines
      rw [progress] at same
      generalize found : second.step subroutines = other at same
      cases same with
      | ended =>
          rw [run_of_ended progress, run_of_ended found]
          exact ⟨rfl, rfl⟩
  | case3 first fault machine progress =>
      have same := step_agrees agrees subroutines
      rw [progress] at same
      generalize found : second.step subroutines = other at same
      cases same with
      | failed sameKind =>
          rw [run_of_failed progress, run_of_failed found]
          exact ⟨congrArg Except.error sameKind, rfl⟩

end Configuration

end Charstring

end Letterform
