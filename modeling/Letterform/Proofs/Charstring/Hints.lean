import Letterform.Proofs.Charstring.Conclusion
import Mathlib.Data.List.Induction

/-!
Hints. The machine counts the stems that it has given, and the length of a mask follows
from the counts. A mask comes from the bytes behind its operator and nowhere else.
-/

namespace Letterform.Charstring

open Cff (Fault)

variable {subroutines : Subroutines}

def Command.isStem (axis : Axis) : Command → Bool
  | .stem other _ _ => axis = other
  | .moveTo _ | .lineTo _ | .curveTo _ _ _ | .close | .mask _ _ => false

def stemsAmong (axis : Axis) (commands : List Command) : Nat :=
  commands.countP (Command.isStem axis)

def maskBytes (commands : List Command) : Nat :=
  (stemsAmong .horizontal commands + stemsAmong .vertical commands + 7) / 8

theorem stemsAmong_append (axis : Axis) (commands others : List Command) :
    stemsAmong axis (commands ++ others) = stemsAmong axis commands + stemsAmong axis others :=
  List.countP_append

theorem stemsAmong_segments (axis : Axis) {commands : List Command}
    (segments : ∀ command ∈ commands, command.IsSegment) : stemsAmong axis commands = 0 := by
  apply List.countP_eq_zero.mpr
  intro command mem
  have isSegment := segments command mem
  cases command with
  | lineTo _ | curveTo _ _ _ => exact Bool.false_ne_true
  | moveTo _ | close | stem _ _ _ | mask _ _ => cases isSegment

theorem isStem_of_mem_stems {axis : Axis} {stack : Stack} {command : Command}
    (mem : command ∈ stack.stems axis) (other : Axis) :
    command.isStem other = decide (other = axis) := by
  rcases List.mem_map.mp mem with ⟨edge, -, rfl⟩
  rfl

theorem stemsAmong_stems (axis other : Axis) (stack : Stack) :
    stemsAmong other (stack.stems axis) =
      if axis = other then (stack.stems axis).length else 0 := by
  split
  · next same =>
      subst same
      apply List.countP_eq_length.mpr
      intro command mem
      rw [isStem_of_mem_stems mem, decide_eq_true rfl]
  · next different =>
      apply List.countP_eq_zero.mpr
      intro command mem
      rw [isStem_of_mem_stems mem, decide_eq_true_eq]
      exact Ne.symm different

/-! Counting. -/

namespace Machine

def CountsStems (machine : Machine) : Prop :=
  ∀ axis, machine.stemCount axis = stemsAmong axis machine.commands

namespace CountsStems

variable {machine other : Machine}

theorem settle (counts : machine.CountsStems) (isPresent : Bool) :
    (machine.settle isPresent).CountsStems := by
  intro axis
  rw [stemCount_settle, commands_settle]
  exact counts axis

theorem draw (counts : machine.CountsStems) (drawn : machine.Extends other) :
    other.CountsStems := by
  intro axis
  rcases drawn.commands with ⟨segments, given, allSegments⟩
  rw [drawn.stemCount, given, stemsAmong_append, stemsAmong_segments axis allSegments]
  exact counts axis

theorem takeStems (counts : machine.CountsStems) (axis : Axis) :
    (machine.takeStems axis).CountsStems := by
  intro other
  rw [stemCount_takeStems, commands_takeStems, stemsAmong_append, stemsAmong_stems, counts other]

theorem openSubpath (counts : machine.CountsStems) : machine.openSubpath.CountsStems := by
  intro axis
  rw [stemCount_openSubpath, commands_openSubpath, stemsAmong_append, counts axis]
  split
  · rfl
  · rfl

theorem moveTo (counts : machine.CountsStems) (target : Point Fixed) :
    (machine.moveTo target).CountsStems := by
  intro axis
  rw [stemCount_moveTo, commands_moveTo, stemsAmong_append, counts axis]
  rfl

theorem finish (counts : machine.CountsStems) : machine.finish.CountsStems := by
  intro axis
  rw [stemCount_finish, commands_finish, stemsAmong_append, counts axis]
  split
  · rfl
  · rfl

theorem giveMask (counts : machine.CountsStems) (kind : MaskKind) (bytes : Bytes) :
    (machine.give [.mask kind bytes]).CountsStems := by
  intro axis
  rw [stemCount_give, commands_give, stemsAmong_append, counts axis]
  rfl

theorem effect (counts : machine.CountsStems) (effect : machine.Effect other) :
    other.CountsStems := by
  cases effect with
  | draw drawn => exact counts.draw drawn
  | stems axis isPresent => exact (counts.settle isPresent).takeStems axis
  | move isPresent target => exact (counts.settle isPresent).openSubpath.moveTo target

theorem maskLength (counts : machine.CountsStems) :
    Action.maskLength machine = max 1 (maskBytes machine.commands) := by
  rw [maskBytes, ← counts, ← counts]
  rfl

end CountsStems

end Machine

open Charstring.Configuration

theorem MaskStep.countsStems {kind : MaskKind} {bytes : Bytes} {before after : Configuration}
    {counted : Machine} (mask : MaskStep kind bytes before counted after)
    (counts : before.machine.CountsStems) : counted.CountsStems := by
  rcases mask.counts with ⟨isPresent, rfl⟩
  exact (counts.settle isPresent).takeStems .vertical

theorem Configuration.countsStems {count : Nat} {charstring : Bytes} {last : Configuration}
    (reached : (ofCharstring charstring).advance? subroutines count = some last) :
    last.machine.CountsStems := by
  have start : (ofCharstring charstring).machine.CountsStems := by
    intro axis
    cases axis with
    | horizontal | vertical => rfl
  apply invariant_advance? _ start reached
  intro before after transition counts
  rcases transition.effect_or_mask with effect | ⟨kind, bytes, counted, mask⟩
  · exact counts.effect effect
  · rw [mask.machine]
    exact (mask.countsStems counts).giveMask kind bytes

theorem Conclusion.countsStems {last : Configuration} {ending : Ending} {machine : Machine}
    (conclusion : Conclusion subroutines last (.ok ending, machine))
    (counts : last.machine.CountsStems) : machine.CountsStems := by
  cases conclusion with
  | exhaust | «return» => exact counts
  | endCharacter token performed =>
      rw [Action.endCharacter_run] at performed
      cases performed
      exact (counts.settle _).finish

/-! Masks. -/

/-- A step that gives a mask after the commands in front. The bytes of the mask are those behind
its operator, with a bit for every stem in front, and the run goes on behind them. The stems on
the stack are the last ones in front. -/
structure GivesMask (front : List Command) (kind : MaskKind) (bytes : Bytes)
    (before after : Configuration) : Prop where
  token : ∃ next, Token.decoder.run before.cursor = (.ok (.operator (.mask kind)), next) ∧
    next.rest = bytes ++ after.cursor.rest ∧
      after.cursor = { rest := after.cursor.rest, position := next.position + bytes.length }
  callers : after.callers = before.callers
  stems : ∃ stems, front = before.machine.commands ++ stems ∧
    ∀ command ∈ stems, command.isStem .vertical
  commands : after.machine.commands = front ++ [.mask kind bytes]
  length : bytes.length = max 1 (maskBytes front)

theorem MaskStep.givesMask {kind : MaskKind} {bytes : Bytes} {before after : Configuration}
    {counted : Machine} (mask : MaskStep kind bytes before counted after)
    (counts : before.machine.CountsStems) :
    GivesMask counted.commands kind bytes before after := by
  rcases mask.takes with ⟨next, token, taken⟩
  rcases Decoder.takeBytes_ok taken with ⟨behind, length, placed⟩
  rw [← length] at placed
  refine ⟨⟨next, token, behind, placed⟩, mask.callers, ?_, ?_, ?_⟩
  · rcases mask.counts with ⟨isPresent, rfl⟩
    refine ⟨(before.machine.settle isPresent).stack.stems .vertical, ?_, ?_⟩
    · rw [Machine.commands_takeStems, Machine.commands_settle]
    · intro command mem
      rw [isStem_of_mem_stems mem, decide_eq_true rfl]
  · rw [mask.machine, Machine.commands_give]
  · rw [length, (mask.countsStems counts).maskLength]

def Machine.AddsNoMask (before after : Machine) : Prop :=
  ∃ given, after.commands = before.commands ++ given ∧
    ∀ kind bytes, Command.mask kind bytes ∉ given

namespace Machine.AddsNoMask

variable {first second third machine other : Machine}

theorem trans (adds : first.AddsNoMask second) (addsMore : second.AddsNoMask third) :
    first.AddsNoMask third := by
  rcases adds with ⟨given, equal, maskless⟩
  rcases addsMore with ⟨more, equalMore, masklessMore⟩
  refine ⟨given ++ more, ?_, ?_⟩
  · rw [equalMore, equal, List.append_assoc]
  · intro kind bytes mem
    rcases List.mem_append.mp mem with mem | mem
    · exact maskless kind bytes mem
    · exact masklessMore kind bytes mem

theorem of_same (same : other.commands = machine.commands) : machine.AddsNoMask other :=
  ⟨[], by rw [same, List.append_nil], nofun⟩

theorem settle (isPresent : Bool) (machine : Machine) :
    machine.AddsNoMask (machine.settle isPresent) :=
  of_same (machine.commands_settle isPresent)

theorem of_extends (drawn : machine.Extends other) : machine.AddsNoMask other := by
  rcases drawn.commands with ⟨segments, given, allSegments⟩
  exact ⟨segments, given, fun kind bytes mem => allSegments _ mem⟩

theorem takeStems (axis : Axis) (machine : Machine) :
    machine.AddsNoMask (machine.takeStems axis) := by
  refine ⟨_, machine.commands_takeStems axis, ?_⟩
  intro kind bytes mem
  rcases List.mem_map.mp mem with ⟨edge, -, equal⟩
  cases equal

theorem openSubpath (machine : Machine) : machine.AddsNoMask machine.openSubpath := by
  refine ⟨_, machine.commands_openSubpath, ?_⟩
  intro kind bytes
  split
  · simp
  · exact List.not_mem_nil

theorem moveTo (target : Point Fixed) (machine : Machine) :
    machine.AddsNoMask (machine.moveTo target) :=
  ⟨_, machine.commands_moveTo target, by simp⟩

theorem finish (machine : Machine) : machine.AddsNoMask machine.finish :=
  (openSubpath machine).trans (of_same (by rw [commands_finish, commands_openSubpath]))

theorem of_effect (effect : machine.Effect other) : machine.AddsNoMask other := by
  cases effect with
  | draw drawn => exact of_extends drawn
  | stems axis isPresent => exact (settle isPresent machine).trans (takeStems axis _)
  | move isPresent target =>
      exact (settle isPresent machine).trans ((openSubpath _).trans (moveTo target _))

theorem isPrefix (adds : machine.AddsNoMask other) {front : List Command} {kind : MaskKind}
    {bytes : Bytes} (isPrefix : front ++ [.mask kind bytes] <+: other.commands) :
    front ++ [.mask kind bytes] <+: machine.commands := by
  rcases adds with ⟨given, equal, maskless⟩
  rw [equal] at isPrefix
  clear equal
  induction given using List.reverseRecOn with
  | nil => rwa [List.append_nil] at isPrefix
  | append_singleton given command induction =>
      rw [← List.append_assoc, List.prefix_concat_iff] at isPrefix
      rcases isPrefix with whole | isPrefix
      · rcases List.append_inj' whole rfl with ⟨-, same⟩
        cases same
        exact absurd (List.mem_append_right given (List.mem_singleton_self _)) (maskless kind bytes)
      · apply induction isPrefix
        intro kind bytes mem
        exact maskless kind bytes (List.mem_append_left _ mem)

end Machine.AddsNoMask

theorem MaskStep.addsNoMask {kind : MaskKind} {bytes : Bytes} {before after : Configuration}
    {counted : Machine} (mask : MaskStep kind bytes before counted after) :
    before.machine.AddsNoMask counted := by
  rcases mask.counts with ⟨isPresent, rfl⟩
  exact (Machine.AddsNoMask.settle isPresent _).trans (.takeStems .vertical _)

/-- Every mask comes from a step of the run. -/
theorem Configuration.exists_givesMask {count : Nat} {charstring : Bytes} {last : Configuration}
    (reached : (ofCharstring charstring).advance? subroutines count = some last)
    {front : List Command} {kind : MaskKind} {bytes : Bytes}
    (isPrefix : front ++ [.mask kind bytes] <+: last.machine.commands) :
    ∃ earlier before after,
      (ofCharstring charstring).advance? subroutines earlier = some before ∧
      (ofCharstring charstring).advance? subroutines (earlier + 1) = some after ∧
      GivesMask front kind bytes before after := by
  induction count generalizing last with
  | zero =>
      cases reached
      rcases List.append_eq_nil_iff.mp (List.prefix_nil.mp isPrefix) with ⟨-, impossible⟩
      cases impossible
  | succ count induction =>
      rcases advance?_succ_last.mp reached with ⟨before, reachedBefore, transition⟩
      rcases transition.effect_or_mask with effect | ⟨otherKind, otherBytes, counted, mask⟩
      · exact induction reachedBefore ((Machine.AddsNoMask.of_effect effect).isPrefix isPrefix)
      -- The mask is the last command of this step, or one of an earlier step.
      · rw [mask.machine, Machine.commands_give, List.prefix_concat_iff] at isPrefix
        rcases isPrefix with whole | isPrefix
        · rcases List.append_inj' whole rfl with ⟨rfl, same⟩
          cases same
          exact ⟨count, before, last, reachedBefore, reached,
            mask.givesMask (Configuration.countsStems reachedBefore)⟩
        · exact induction reachedBefore (mask.addsNoMask.isPrefix isPrefix)

theorem Conclusion.addsNoMask {last : Configuration} {result : Except Fault Ending × Machine}
    (conclusion : Conclusion subroutines last result) : last.machine.AddsNoMask result.2 := by
  cases conclusion with
  | exhaust | «return» | unread | unresolved | deep => exact .of_same rfl
  | endCharacter token performed =>
      rw [Action.endCharacter_run] at performed
      cases performed
      exact (Machine.AddsNoMask.settle _ _).trans (.finish _)
  | act token acts failed =>
      rcases Machine.extends_or_open_of_action acts failed with drawn | ⟨isPresent, opened⟩
      · exact .of_extends drawn
      · rw [opened]
        exact (Machine.AddsNoMask.settle _ _).trans (.openSubpath _)
  | mask token performed =>
      rw [Action.stems_run] at performed
      cases performed
      exact (Machine.AddsNoMask.settle _ _).trans (.takeStems .vertical _)

/-- At every step of a run and at its end, the counts are the numbers of stems that have been
given. A mask operator takes a byte for every eight stems given before the mask, its own among
them, and at least one. These bytes are directly behind it in the charstring or subroutine, and
the run goes on behind them. Every mask comes from such a step. -/
theorem evaluate_hints (subroutines : Subroutines) (charstring : Bytes) :
    let start := ofCharstring charstring
    let evaluation := evaluate subroutines charstring
    (∀ count reached, start.advance? subroutines count = some reached →
      reached.machine.horizontalStems = stemsAmong .horizontal reached.machine.commands ∧
        reached.machine.verticalStems = stemsAmong .vertical reached.machine.commands) ∧
    (∀ summary, evaluation.summary = .ok summary →
      summary.horizontalStems = stemsAmong .horizontal evaluation.commands ∧
        summary.verticalStems = stemsAmong .vertical evaluation.commands) ∧
    (∀ count before after kind next, start.advance? subroutines count = some before →
      Token.decoder.run before.cursor = (.ok (.operator (.mask kind)), next) →
      start.advance? subroutines (count + 1) = some after →
      ∃ front bytes, GivesMask front kind bytes before after) ∧
    (∀ front kind bytes, front ++ [.mask kind bytes] <+: evaluation.commands →
      ∃ count before after, start.advance? subroutines count = some before ∧
        start.advance? subroutines (count + 1) = some after ∧
        GivesMask front kind bytes before after) := by
  rcases exists_conclusion subroutines (ofCharstring charstring) with
    ⟨count, last, reached, conclusion⟩
  rw [evaluate_eq_ofResult]
  generalize run subroutines (ofCharstring charstring) = final at conclusion
  rcases final with ⟨result, machine⟩
  intro start evaluation
  refine ⟨?_, ?_, ?_, ?_⟩
  · intro count last reached
    have counts := Configuration.countsStems reached
    exact ⟨counts .horizontal, counts .vertical⟩
  · intro summary succeeds
    cases result with
    | error fault => cases succeeds
    | ok ending =>
        cases succeeds
        have counts := conclusion.countsStems (Configuration.countsStems reached)
        exact ⟨counts .horizontal, counts .vertical⟩
  · intro count before after kind next reachedBefore token reachedAfter
    rcases advance?_succ_last.mp reachedAfter with ⟨middle, reachedMiddle, transition⟩
    cases reachedMiddle.symm.trans reachedBefore
    rcases transition.maskStep token with ⟨bytes, counted, mask⟩
    exact ⟨_, bytes, mask.givesMask (Configuration.countsStems reachedBefore)⟩
  · intro front kind bytes isPrefix
    exact exists_givesMask reached (conclusion.addsNoMask.isPrefix isPrefix)

/-- A mask with a vertical stem still on the stack. -/
theorem evaluate_hints_mask :
    let start := ofCharstring [140, 141, 19, 128, 14]
    ∃ count before after, start.advance? {} count = some before ∧
      start.advance? {} (count + 1) = some after ∧
      GivesMask [.stem .vertical ⟨65536⟩ ⟨196608⟩] .hint [128] before after := by
  apply (evaluate_hints {} [140, 141, 19, 128, 14]).2.2.2
  have reached : (ofCharstring [140, 141, 19, 128, 14]).advance? {} 3 = some _ := rfl
  have ends := (run_of_advance? reached).trans
    (run_of_conclusion (.endCharacter rfl (Action.endCharacter_run _)))
  rw [evaluate_eq_ofResult, ends]
  decide

end Letterform.Charstring
