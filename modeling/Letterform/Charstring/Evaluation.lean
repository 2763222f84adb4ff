import Letterform.Cff.Index
import Letterform.Charstring.Machine

/-!
Running charstrings. A configuration has the cursor of the charstring or
subroutine that is running, those of its callers, and the machine. Running off the
end of a subroutine returns to its caller.

Runs end although a subroutine may call itself: a call is refused when ten calls
are open, so an open call can be given a weight that no number of calls inside it
exceeds. Every step makes the total weight smaller.
-/

namespace Letterform.Charstring

attribute [local instance] naturalPower

open Cff (Fault Index nestingLimit)

structure Subroutines where
  charstringType : Int32 := 2
  globals : Index := .empty
  locals : Option Index := none
  deriving DecidableEq, Repr

namespace Subroutines

def index (subroutines : Subroutines) : SubroutineScope → Except Fault Index
  | .globals => .ok subroutines.globals
  | .locals => match subroutines.locals with
    | some index => .ok index
    | none => .error .missingSubroutines

def body (index : Index) (number : Int32) : Except Fault Bytes :=
  if number < 0 || index.size ≤ number.toInt.toNat then .error (.subroutineIndex number)
  else index.get number.toInt.toNat

def biased (subroutines : Subroutines) (index : Index) (number : Int32) : Int32 :=
  saturate32 (number.toInt +
    (Index.subroutineBias index.size subroutines.charstringType).toInt)

def longest (subroutines : Subroutines) : Nat :=
  max subroutines.globals.objects.length
    (subroutines.locals.elim 0 fun index => index.objects.length)

def callee (subroutines : Subroutines) (scope : SubroutineScope) (stack : Stack) :
    Except Fault (Bytes × Stack) := do
  let index ← subroutines.index scope
  let (operand, stack) ← stack.pop
  let object ← body index (subroutines.biased index operand.toInt32)
  return (object, stack)

end Subroutines

structure Configuration where
  cursor : Cursor
  callers : List Cursor := []
  machine : Machine := {}

inductive Ending
  | endCharacter
  /-- Past the end of the charstring, or by a return from it. -/
  | exhausted
  deriving DecidableEq, Repr

inductive Progress
  | running (configuration : Configuration)
  | ended (ending : Ending) (machine : Machine)
  | failed (fault : Fault) (machine : Machine)

namespace Configuration

def leave (machine : Machine) : List Cursor → Progress
  | caller :: callers => .running ⟨caller, callers, machine⟩
  | [] => .ended .exhausted machine

def after {α : Type} (action : Action α) (machine : Machine)
    (next : α → Machine → Progress) : Progress :=
  match action.run machine with
  | (.ok value, machine) => next value machine
  | (.error fault, machine) => .failed fault machine

def takeMask (kind : MaskKind) (cursor : Cursor) (callers : List Cursor) (machine : Machine) :
    Progress :=
  match (Decoder.takeBytes (Action.maskLength machine)).run cursor with
  | (.ok bytes, cursor) =>
      after (Action.emit (.mask kind bytes)) machine fun _ machine =>
        .running ⟨cursor, callers, machine⟩
  | (.error error, _) => .failed (.read error) machine

def enter (body : Bytes) (cursor : Cursor) (callers : List Cursor) (machine : Machine) :
    Progress :=
  if nestingLimit ≤ callers.length then .failed .nestingTooDeep machine
  else .running ⟨.ofBytes body, cursor :: callers, machine⟩

def perform (subroutines : Subroutines) (operator : Operator) (cursor : Cursor)
    (callers : List Cursor) (machine : Machine) : Progress :=
  let go (action : Action Unit) :=
    after action machine fun _ machine => .running ⟨cursor, callers, machine⟩
  match operator with
  | .stems axis => go (Action.stems axis)
  | .mask kind =>
      after (Action.stems .vertical) machine fun _ machine => takeMask kind cursor callers machine
  | .move operator => go (Action.move operator)
  | .path operator => go (Action.path operator)
  | .call scope => match subroutines.callee scope machine.stack with
      | .ok (body, stack) => enter body cursor callers { machine with stack }
      | .error fault => .failed fault machine
  | .return => leave machine callers
  | .endCharacter =>
      after Action.endCharacter machine fun _ machine => .ended .endCharacter machine
  | .arithmetic operator => go (Action.arithmetic operator)
  | .ignored operator => go (Action.ignore operator)

def step (subroutines : Subroutines) (configuration : Configuration) : Progress :=
  if configuration.cursor.rest.isEmpty then leave configuration.machine configuration.callers
  else match Token.decoder.run configuration.cursor with
    | (.error fault, _) => .failed fault configuration.machine
    | (.ok (.operand operand), cursor) =>
        .running { configuration with
          cursor
          machine.stack := configuration.machine.stack.push operand }
    | (.ok (.operator operator), cursor) =>
        perform subroutines operator cursor configuration.callers configuration.machine

/-! Weights. -/

/-- A cursor with `n` bytes ahead weighs `n + 1` powers of the base; the powers fall with
the depth of the call. -/
def weightOf (base : Nat) : List Cursor → Nat
  | [] => 0
  | cursor :: callers =>
      (cursor.rest.length + 1) * base ^ (nestingLimit - callers.length) + weightOf base callers

def weight (subroutines : Subroutines) (configuration : Configuration) : Nat :=
  weightOf (subroutines.longest + 2) (configuration.cursor :: configuration.callers)

end Configuration

namespace Subroutines

theorem length_body {index : Index} {number : Int32} {object : Bytes}
    (equal : body index number = .ok object) : object.length ≤ index.objects.length := by
  simp only [body] at equal
  split at equal
  · cases equal
  · exact Cff.Index.length_get equal

theorem length_index {subroutines : Subroutines} {scope : SubroutineScope} {index : Index}
    (equal : subroutines.index scope = .ok index) :
    index.objects.length ≤ subroutines.longest := by
  cases scope with
  | globals =>
      cases equal
      exact Nat.le_max_left _ _
  | locals =>
      simp only [Subroutines.index] at equal
      split at equal
      · next found =>
          cases equal
          simp only [longest, found]
          exact Nat.le_max_right _ _
      · cases equal

theorem length_callee {subroutines : Subroutines} {scope : SubroutineScope}
    {stack rest : Stack} {object : Bytes}
    (equal : subroutines.callee scope stack = .ok (object, rest)) :
    object.length ≤ subroutines.longest := by
  simp only [callee, bind, Except.bind, pure, Except.pure] at equal
  split at equal
  · cases equal
  · next found =>
      split at equal
      · cases equal
      · split at equal
        · cases equal
        · next part =>
            cases equal
            exact Nat.le_trans (length_body part) (length_index found)

end Subroutines

namespace Configuration

theorem leave_lighter {machine : Machine} {cursor : Cursor} {callers : List Cursor}
    {next : Configuration} (subroutines : Subroutines)
    (equal : leave machine callers = .running next) :
    next.weight subroutines < weightOf (subroutines.longest + 2) (cursor :: callers) := by
  cases callers with
  | nil => cases equal
  | cons caller callers =>
      cases equal
      simp only [weight]
      rw [weightOf.eq_2 _ cursor]
      refine Nat.lt_add_of_pos_left (Nat.mul_pos (Nat.succ_pos _) (Nat.pow_pos (Nat.succ_pos _)))

theorem enter_lighter {body : Bytes} {cursor before : Cursor} {callers : List Cursor}
    {machine : Machine} {next : Configuration} {subroutines : Subroutines}
    (short : body.length ≤ subroutines.longest)
    (taken : cursor.rest.length < before.rest.length)
    (equal : enter body cursor callers machine = .running next) :
    next.weight subroutines < weightOf (subroutines.longest + 2) (before :: callers) := by
  simp only [enter] at equal
  split at equal
  · cases equal
  · next shallow =>
      cases equal
      simp only [weight, weightOf, List.length_cons, Cursor.ofBytes]
      obtain ⟨depth, remaining⟩ : ∃ depth, nestingLimit - callers.length = depth + 1 :=
        ⟨nestingLimit - callers.length - 1, by omega⟩
      have inner : nestingLimit - (callers.length + 1) = depth := by omega
      rw [remaining, inner, Nat.pow_succ]
      have unit : 0 < (subroutines.longest + 2) ^ depth := Nat.pow_pos (Nat.succ_pos _)
      generalize (subroutines.longest + 2) ^ depth = power at unit ⊢
      have bodyWeight : (body.length + 1) * power < (subroutines.longest + 2) * power :=
        Nat.mul_lt_mul_of_pos_right (by omega) unit
      have callerWeight : (cursor.rest.length + 1 + 1) * (power * (subroutines.longest + 2)) ≤
          (before.rest.length + 1) * (power * (subroutines.longest + 2)) :=
        Nat.mul_le_mul_right _ (by omega)
      rw [Nat.add_mul (cursor.rest.length + 1) 1, Nat.one_mul] at callerWeight
      rw [Nat.mul_comm (subroutines.longest + 2) power] at bodyWeight
      omega

theorem weightOf_lighter {cursor before : Cursor} (callers : List Cursor) (base : Nat)
    (taken : cursor.rest.length < before.rest.length) :
    weightOf (base + 1) (cursor :: callers) < weightOf (base + 1) (before :: callers) := by
  simp only [weightOf]
  have unit : 0 < (base + 1) ^ (nestingLimit - callers.length) := Nat.pow_pos (Nat.succ_pos base)
  exact Nat.add_lt_add_right
    (Nat.mul_lt_mul_of_pos_right (Nat.add_lt_add_right taken 1) unit) _

theorem after_running {α : Type} {action : Action α} {machine : Machine}
    {next : α → Machine → Progress} {configuration : Configuration}
    (equal : after action machine next = .running configuration) :
    ∃ value machine, next value machine = .running configuration := by
  simp only [after] at equal
  split at equal
  · exact ⟨_, _, equal⟩
  · cases equal

theorem takeMask_running {kind : MaskKind} {cursor : Cursor} {callers : List Cursor}
    {machine : Machine} {next : Configuration}
    (equal : takeMask kind cursor callers machine = .running next) :
    next.callers = callers ∧ next.cursor.rest.length ≤ cursor.rest.length := by
  have shortens := (Decoder.takeBytes (Action.maskLength machine)).shortens cursor
  simp only [takeMask] at equal
  split at equal
  · next found =>
      rw [found] at shortens
      obtain ⟨_, _, equal⟩ := after_running equal
      cases equal
      exact ⟨rfl, shortens⟩
  · cases equal

theorem perform_lighter {subroutines : Subroutines} {operator : Operator}
    {cursor before : Cursor} {callers : List Cursor} {machine : Machine} {next : Configuration}
    (taken : cursor.rest.length < before.rest.length)
    (equal : perform subroutines operator cursor callers machine = .running next) :
    next.weight subroutines < weightOf (subroutines.longest + 2) (before :: callers) := by
  have stay {configuration : Configuration}
      (same : configuration.callers = callers)
      (shorter : configuration.cursor.rest.length ≤ cursor.rest.length) :
      configuration.weight subroutines <
        weightOf (subroutines.longest + 2) (before :: callers) := by
    simp only [weight, same]
    exact weightOf_lighter callers _ (Nat.lt_of_le_of_lt shorter taken)
  cases operator with
  | stems _ | move _ | path _ | arithmetic _ | ignored _ =>
      simp only [perform] at equal
      obtain ⟨_, _, equal⟩ := after_running equal
      cases equal
      exact stay rfl (Nat.le_refl _)
  | mask _ =>
      simp only [perform] at equal
      obtain ⟨_, _, equal⟩ := after_running equal
      obtain ⟨same, shorter⟩ := takeMask_running equal
      exact stay same shorter
  | call _ =>
      simp only [perform] at equal
      split at equal
      · next found => exact enter_lighter (Subroutines.length_callee found) taken equal
      · cases equal
  | «return» => exact leave_lighter subroutines equal
  | endCharacter =>
      simp only [perform] at equal
      obtain ⟨_, _, equal⟩ := after_running equal
      cases equal

theorem step_lighter {subroutines : Subroutines} {configuration next : Configuration}
    (equal : configuration.step subroutines = .running next) :
    next.weight subroutines < configuration.weight subroutines := by
  simp only [step] at equal
  split at equal
  · exact leave_lighter subroutines equal
  · next nonempty =>
      have taken := Token.decoder_consumes configuration.cursor
        (by simpa [List.isEmpty_iff] using nonempty)
      split at equal
      · cases equal
      · next found =>
          rw [found] at taken
          cases equal
          exact weightOf_lighter _ _ taken
      · next found =>
          rw [found] at taken
          exact perform_lighter taken equal

def run (subroutines : Subroutines) (configuration : Configuration) :
    Except Fault Ending × Machine :=
  match _progress : configuration.step subroutines with
  | .running next => next.run subroutines
  | .ended ending machine => (.ok ending, machine)
  | .failed fault machine => (.error fault, machine)
termination_by configuration.weight subroutines
decreasing_by exact step_lighter ‹_›

end Configuration

/-! What an evaluation gives. -/

structure Summary where
  width : Option Fixed := none
  horizontalStems : Nat := 0
  verticalStems : Nat := 0
  ignored : List IgnoredOperator := []
  deriving DecidableEq, Repr

def Machine.summary (machine : Machine) : Summary where
  width := machine.width
  horizontalStems := machine.horizontalStems
  verticalStems := machine.verticalStems
  ignored := machine.ignored

structure Evaluation where
  commands : List Command
  summary : Except Fault Summary

def evaluate (subroutines : Subroutines) (charstring : Bytes) : Evaluation :=
  let (result, machine) := Configuration.run subroutines { cursor := .ofBytes charstring }
  { commands := machine.pen.commands.toList, summary := result.map fun _ => machine.summary }

end Letterform.Charstring
