import Letterform.Proofs.Charstring.Effect
import Letterform.Proofs.Charstring.Run
import Mathlib.Data.List.Forall2

/-!
Two runs in step. The runs stand at the same place, and their machines are related. If
the operators keep the relation, the second run goes on for as long as the first one.
-/

namespace Letterform.Charstring

open Cff (Fault)

variable {subroutines : Subroutines}

structure Alongside (related : Machine → Machine → Prop) (first second : Configuration) :
    Prop where
  cursor : first.cursor.Agrees second.cursor
  callers : List.Forall₂ Cursor.Agrees first.callers second.callers
  machine : related first.machine second.machine

namespace Alongside

variable {related goal : Machine → Machine → Prop} {second : Configuration} {cursor next last : Cursor}
  {callers : List Cursor} {before counted after other : Machine}

theorem act (alongside : Alongside related ⟨cursor, callers, before⟩ second) {operator : Operator}
    {action : Action Unit} (token : Token.decoder.run cursor = (.ok (.operator operator), next))
    (acts : operator.action? = some action) (performed : action.run second.machine = (.ok (), other))
    (relates : goal after other) :
    ∃ otherNext, Transition subroutines second otherNext ∧
      Alongside goal ⟨next, callers, after⟩ otherNext := by
  rcases Token.decoder_isRegular.blind.run_ok alongside.cursor token with
    ⟨_, otherToken, agreesNext⟩
  exact ⟨_, .act otherToken acts performed, agreesNext, alongside.callers, relates⟩

theorem mask (alongside : Alongside related ⟨cursor, callers, before⟩ second) {kind : MaskKind}
    {bytes : Bytes} (token : Token.decoder.run cursor = (.ok (.operator (.mask kind)), next))
    (taken : (Decoder.takeBytes (Action.maskLength counted)).run next = (.ok bytes, last))
    (performed : (Action.stems .vertical).run second.machine = (.ok (), other))
    (sameLength : Action.maskLength other = Action.maskLength counted)
    (relates : goal (counted.give [.mask kind bytes]) (other.give [.mask kind bytes])) :
    ∃ otherNext, Transition subroutines second otherNext ∧
      Alongside goal ⟨last, callers, counted.give [.mask kind bytes]⟩ otherNext := by
  rcases Token.decoder_isRegular.blind.run_ok alongside.cursor token with
    ⟨_, otherToken, agreesNext⟩
  rcases (Decoder.IsBlind.takeBytes _).run_ok agreesNext taken with ⟨_, otherTaken, agreesLast⟩
  rw [← sameLength] at otherTaken
  exact ⟨_, .mask otherToken performed otherTaken rfl, agreesLast, alongside.callers, relates⟩

end Alongside

structure Carries (permitted : Operator → Prop) (hasRoom : Machine → Prop)
    (related : Machine → Machine → Prop) : Prop where
  push {first second : Machine} (operand : Operand) (relates : related first second)
    (room : hasRoom { first with stack := first.stack.push operand }) :
    related { first with stack := first.stack.push operand }
      { second with stack := second.stack.push operand }
  pop {first second : Machine} {operand : Operand} {stack : Stack} (relates : related first second)
    (popped : first.stack.pop = .ok (operand, stack)) :
    ∃ other, second.stack.pop = .ok (operand, other) ∧
      related { first with stack } { second with stack := other }
  act {first second after : Machine} {operator : Operator} {action : Action Unit}
    (isPermitted : permitted operator) (acts : operator.action? = some action)
    (relates : related first second) (performed : action.run first = (.ok (), after))
    (room : hasRoom after) :
    ∃ other, action.run second = (.ok (), other) ∧ related after other
  mask {first second counted : Machine} {kind : MaskKind}
    (isPermitted : permitted (.mask kind)) (relates : related first second)
    (performed : (Action.stems .vertical).run first = (.ok (), counted)) :
    ∃ other, (Action.stems .vertical).run second = (.ok (), other) ∧
      Action.maskLength other = Action.maskLength counted ∧
        ∀ bytes, related (counted.give [.mask kind bytes]) (other.give [.mask kind bytes])

namespace Subroutines

theorem exists_pop_of_callee {scope : SubroutineScope} {stack rest : Stack} {body : Bytes}
    (resolved : subroutines.callee scope stack = .ok (body, rest)) :
    ∃ operand, stack.pop = .ok (operand, rest) ∧
      ∀ other below : Stack, other.pop = .ok (operand, below) →
        subroutines.callee scope other = .ok (body, below) := by
  simp only [callee, bind, Except.bind, pure, Except.pure] at resolved ⊢
  split at resolved
  · cases resolved
  · split at resolved
    · cases resolved
    · next popped =>
        split at resolved
        · cases resolved
        · next read =>
            cases resolved
            refine ⟨_, popped, ?_⟩
            intro other below otherPopped
            simp only [otherPopped, read]

end Subroutines

namespace Carries

variable {permitted : Operator → Prop} {hasRoom : Machine → Prop}
  {related : Machine → Machine → Prop}

theorem transition (carries : Carries permitted hasRoom related) {first next second : Configuration}
    (alongside : Alongside related first second) (transition : Transition subroutines first next)
    (isPermitted : ∀ operator cursor,
      Token.decoder.run first.cursor = (.ok (.operator operator), cursor) → permitted operator)
    (room : hasRoom next.machine) :
    ∃ after, Transition subroutines second after ∧ Alongside related next after := by
  rcases second with ⟨cursor, callers, machine⟩
  have ⟨agrees, agree, relates⟩ := alongside
  have read {next : Cursor} {token : Token}
      (equal : Token.decoder.run first.cursor = (.ok token, next)) :=
    Token.decoder_isRegular.blind.run_ok agrees equal
  cases transition with
  | exhaust exhausted =>
      cases agree with
      | cons callerAgrees agree =>
          exact ⟨_, .exhaust (agrees.1.symm.trans exhausted), callerAgrees, agree, relates⟩
  | operand token =>
      rcases read token with ⟨_, otherToken, agreesNext⟩
      exact ⟨_, .operand otherToken, agreesNext, agree, carries.push _ relates room⟩
  | act token acts performed =>
      rcases carries.act (isPermitted _ _ token) acts relates performed room with
        ⟨_, otherPerformed, relates⟩
      exact alongside.act token acts otherPerformed relates
  | mask token performed taken emitted =>
      rcases carries.mask (isPermitted _ _ token) relates performed with
        ⟨_, otherPerformed, sameLength, relates⟩
      cases emitted
      exact alongside.mask token taken otherPerformed sameLength (relates _)
  | call token resolved shallow =>
      rcases read token with ⟨_, otherToken, agreesNext⟩
      rcases Subroutines.exists_pop_of_callee resolved with ⟨_, popped, resolves⟩
      rcases carries.pop relates popped with ⟨_, otherPopped, relates⟩
      rw [agree.length_eq] at shallow
      exact ⟨_, .call otherToken (resolves _ _ otherPopped) shallow, ⟨rfl, rfl⟩,
        .cons agreesNext agree, relates⟩
  | «return» token =>
      rcases read token with ⟨_, otherToken, -⟩
      cases agree with
      | cons callerAgrees agree => exact ⟨_, .return otherToken, callerAgrees, agree, relates⟩

theorem advance? (carries : Carries permitted hasRoom related) {count : Nat}
    {first last second : Configuration} (alongside : Alongside related first second)
    (reached : first.advance? subroutines count = some last)
    (arePermitted : ∀ earlier < count, ∀ before,
      first.advance? subroutines earlier = some before → ∀ operator cursor,
        Token.decoder.run before.cursor = (.ok (.operator operator), cursor) → permitted operator)
    (room : ∀ earlier ≤ count, ∀ before,
      first.advance? subroutines earlier = some before → hasRoom before.machine) :
    ∃ other, second.advance? subroutines count = some other ∧ Alongside related last other := by
  induction count generalizing last with
  | zero =>
      cases reached
      exact ⟨second, rfl, alongside⟩
  | succ count induction =>
      rcases Configuration.advance?_succ_last.mp reached with ⟨before, reachedBefore, transition⟩
      have earlierPermitted := fun earlier (bound : earlier < count) =>
        arePermitted earlier (Nat.lt_succ_of_lt bound)
      have earlierRoom := fun earlier (bound : earlier ≤ count) =>
        room earlier (Nat.le_succ_of_le bound)
      rcases induction reachedBefore earlierPermitted earlierRoom with
        ⟨otherBefore, otherReached, alongsideBefore⟩
      rcases carries.transition alongsideBefore transition
        (arePermitted count (Nat.lt_succ_self count) before reachedBefore)
        (room (count + 1) (Nat.le_refl _) last reached) with ⟨other, otherTransition, alongsideLast⟩
      exact ⟨other, Configuration.advance?_succ_last.mpr ⟨_, otherReached, otherTransition⟩,
        alongsideLast⟩

end Carries

end Letterform.Charstring
