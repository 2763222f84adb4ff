import Letterform.Proofs.Charstring.Conclusion

/-!
Contours. A contour starts with a move and stops with a close. During a run, contours
are closed by the moves that start others, so that all of them are closed but the
last one. The `endchar` operator closes that one, too; a run that ends without it
leaves it open.
-/

namespace Letterform.Charstring

open Cff (Fault)

variable {subroutines : Subroutines}

inductive ContourMark
  | start
  | stop
  deriving DecidableEq, Repr

def ContourMark.alternating (count : Nat) : List ContourMark :=
  (List.range count).map fun position => if position % 2 = 0 then .start else .stop

def Command.contourMark? : Command → Option ContourMark
  | .moveTo _ => some .start
  | .close => some .stop
  | .lineTo _ | .curveTo _ _ _ | .stem _ _ _ | .mask _ _ => none

def contourMarks (commands : List Command) : List ContourMark :=
  commands.filterMap Command.contourMark?

namespace ContourMark

theorem alternating_succ (count : Nat) :
    alternating (count + 1) =
      alternating count ++ [if count % 2 = 0 then .start else .stop] := by
  rw [alternating, List.range_succ, List.map_append]
  rfl

theorem alternating_even (count : Nat) :
    alternating (2 * count + 1) = alternating (2 * count) ++ [.start] := by
  rw [alternating_succ, if_pos (by omega)]

theorem alternating_odd (count : Nat) :
    alternating (2 * count + 2) = alternating (2 * count + 1) ++ [.stop] := by
  rw [alternating_succ, if_neg (by omega)]

theorem length_alternating (count : Nat) : (alternating count).length = count := by
  rw [alternating, List.length_map, List.length_range]

theorem count_alternating (count : Nat) :
    (alternating count).count .start = (count + 1) / 2 ∧
      (alternating count).count .stop = count / 2 := by
  induction count with
  | zero => exact ⟨rfl, rfl⟩
  | succ count induction =>
      rcases induction with ⟨starts, stops⟩
      rw [alternating_succ, List.count_append, List.count_append, starts, stops]
      split
      · simp only [List.count_singleton, beq_self_eq_true, if_true, reduceCtorEq, beq_iff_eq,
          if_false]
        omega
      · simp only [List.count_singleton, beq_self_eq_true, if_true, reduceCtorEq, beq_iff_eq,
          if_false]
        omega

end ContourMark

open ContourMark

theorem contourMarks_append (commands others : List Command) :
    contourMarks (commands ++ others) = contourMarks commands ++ contourMarks others :=
  List.filterMap_append

theorem contourMarks_of_segments {commands : List Command}
    (segments : ∀ command ∈ commands, command.IsSegment) : contourMarks commands = [] := by
  apply List.filterMap_eq_nil_iff.mpr
  intro command mem
  have isSegment := segments command mem
  cases command with
  | lineTo _ | curveTo _ _ _ => rfl
  | moveTo _ | close | stem _ _ _ | mask _ _ => cases isSegment

theorem contourMarks_stems (axis : Axis) (stack : Stack) : contourMarks (stack.stems axis) = [] := by
  apply List.filterMap_eq_nil_iff.mpr
  intro command mem
  rcases List.mem_map.mp mem with ⟨edge, -, rfl⟩
  rfl

namespace Machine

/-- No contour is open before the first move, and the last one is open from then on. -/
def DrawsContours (machine : Machine) : Prop :=
  machine.isOpen = false ∧ contourMarks machine.commands = [] ∨
    machine.isOpen = true ∧
      ∃ closed, contourMarks machine.commands = alternating (2 * closed + 1)

namespace DrawsContours

variable {machine other : Machine}

theorem of_same (draws : machine.DrawsContours) (isOpen : other.isOpen = machine.isOpen)
    (marks : contourMarks other.commands = contourMarks machine.commands) :
    other.DrawsContours := by
  unfold DrawsContours
  rw [isOpen, marks]
  exact draws

theorem alternate (draws : machine.DrawsContours) :
    ∃ count, contourMarks machine.commands = alternating count := by
  rcases draws with ⟨-, none⟩ | ⟨-, closed, marks⟩
  · exact ⟨0, none⟩
  · exact ⟨_, marks⟩

theorem settle (draws : machine.DrawsContours) (isPresent : Bool) :
    (machine.settle isPresent).DrawsContours :=
  draws.of_same (machine.isOpen_settle isPresent) (by rw [commands_settle])

theorem draw (draws : machine.DrawsContours) (drawn : machine.Extends other) :
    other.DrawsContours := by
  rcases drawn.commands with ⟨segments, given, allSegments⟩
  apply draws.of_same drawn.isOpen
  rw [given, contourMarks_append, contourMarks_of_segments allSegments, List.append_nil]

theorem takeStems (draws : machine.DrawsContours) (axis : Axis) :
    (machine.takeStems axis).DrawsContours := by
  apply draws.of_same (machine.isOpen_takeStems axis)
  rw [commands_takeStems, contourMarks_append, contourMarks_stems, List.append_nil]

theorem openSubpath (draws : machine.DrawsContours) :
    ∃ closed, contourMarks machine.openSubpath.commands = alternating (2 * closed) := by
  rw [commands_openSubpath, contourMarks_append]
  rcases draws with ⟨isClosed, none⟩ | ⟨isOpen, closed, marks⟩
  · refine ⟨0, ?_⟩
    rw [none, isClosed]
    rfl
  · refine ⟨closed + 1, ?_⟩
    rw [marks, isOpen, Nat.mul_succ, alternating_odd]
    rfl

theorem moveTo (draws : machine.DrawsContours) (target : Point Fixed) :
    (machine.openSubpath.moveTo target).DrawsContours := by
  rcases draws.openSubpath with ⟨closed, marks⟩
  refine .inr ⟨?_, closed, ?_⟩
  · rw [isOpen_moveTo, isOpen_openSubpath]
  · rw [commands_moveTo, contourMarks_append, marks, alternating_even]
    rfl

theorem finish (draws : machine.DrawsContours) :
    ∃ closed, contourMarks machine.finish.commands = alternating (2 * closed) := by
  rcases draws.openSubpath with ⟨closed, marks⟩
  refine ⟨closed, ?_⟩
  rw [← marks, commands_finish, commands_openSubpath]

theorem giveMask (draws : machine.DrawsContours) (kind : MaskKind) (bytes : Bytes) :
    (machine.give [.mask kind bytes]).DrawsContours := by
  apply draws.of_same
  · rw [isOpen_give]
  · rw [commands_give, contourMarks_append]
    exact List.append_nil _

theorem effect (draws : machine.DrawsContours) (effect : machine.Effect other) :
    other.DrawsContours := by
  cases effect with
  | draw drawn => exact draws.draw drawn
  | stems axis isPresent => exact (draws.settle isPresent).takeStems axis
  | move isPresent target => exact (draws.settle isPresent).moveTo target

end DrawsContours

end Machine

open Charstring.Configuration

theorem Configuration.drawsContours {count : Nat} {charstring : Bytes} {last : Configuration}
    (reached : (ofCharstring charstring).advance? subroutines count = some last) :
    last.machine.DrawsContours := by
  have start : (ofCharstring charstring).machine.DrawsContours := .inl ⟨rfl, rfl⟩
  apply invariant_advance? _ start reached
  intro before after transition draws
  rcases transition.effect_or_mask with effect | ⟨kind, bytes, counted, mask⟩
  · exact draws.effect effect
  · rcases mask.counts with ⟨isPresent, counts⟩
    rw [mask.machine, counts]
    exact ((draws.settle isPresent).takeStems .vertical).giveMask kind bytes

/-- However a run ends, its last step leaves moves and closes by turns. -/
theorem Conclusion.alternate {last : Configuration} {result : Except Fault Ending × Machine}
    (conclusion : Conclusion subroutines last result) (draws : last.machine.DrawsContours) :
    ∃ count, contourMarks result.2.commands = alternating count := by
  cases conclusion with
  | exhaust | «return» | unread | unresolved => exact draws.alternate
  | deep => exact (draws.draw (Machine.extends_withStack _ _)).alternate
  | endCharacter token performed =>
      rw [Action.endCharacter_run] at performed
      cases performed
      rcases (draws.settle _).finish with ⟨closed, marks⟩
      exact ⟨_, marks⟩
  | act token acts failed =>
      rcases Machine.extends_or_open_of_action acts failed with drawn | ⟨isPresent, opened⟩
      · exact (draws.draw drawn).alternate
      · rcases (draws.settle isPresent).openSubpath with ⟨closed, marks⟩
        rw [opened]
        exact ⟨_, marks⟩
  | mask token performed =>
      rw [Action.stems_run] at performed
      cases performed
      exact ((draws.settle _).takeStems .vertical).alternate

theorem Conclusion.contours_of_endCharacter {last : Configuration} {machine : Machine}
    (conclusion : Conclusion subroutines last (.ok .endCharacter, machine))
    (draws : last.machine.DrawsContours) :
    ∃ closed, contourMarks machine.commands = alternating (2 * closed) := by
  cases conclusion with
  | endCharacter token performed =>
      rw [Action.endCharacter_run] at performed
      cases performed
      exact (draws.settle _).finish

theorem Conclusion.contours_of_exhausted {last : Configuration} {machine : Machine}
    (conclusion : Conclusion subroutines last (.ok .exhausted, machine))
    (draws : last.machine.DrawsContours) : machine.DrawsContours := by
  cases conclusion with
  | exhaust | «return» => exact draws

def ReachesEndCharacter (subroutines : Subroutines) (charstring : Bytes) : Prop :=
  ∃ count last next, (ofCharstring charstring).advance? subroutines count = some last ∧
    Token.decoder.run last.cursor = (.ok (.operator .endCharacter), next)

/-- An `endchar` is the last operator of a run. -/
theorem reachesEndCharacter_iff {charstring : Bytes} :
    ReachesEndCharacter subroutines charstring ↔
      ((ofCharstring charstring).run subroutines).1 = .ok .endCharacter := by
  constructor
  · rintro ⟨count, ⟨cursor, callers, machine⟩, next, reached, token⟩
    rw [run_of_advance? reached,
      run_of_conclusion (.endCharacter token (Action.endCharacter_run machine))]
  · intro ends
    rcases exists_conclusion subroutines (ofCharstring charstring) with
      ⟨count, last, reached, conclusion⟩
    generalize run subroutines (ofCharstring charstring) = result at ends conclusion
    cases conclusion with
    | endCharacter token => exact ⟨count, _, _, reached, token⟩
    | exhaust | «return» | unread | act | mask | unresolved | deep => cases ends

/-- The moves and closes that an evaluation gives alternate, beginning with a move, whether it
fails or not. There are as many closes as moves if it ends by `endchar`. If it ends without, one
close is missing, unless there are no moves. -/
theorem evaluate_contours (subroutines : Subroutines) (charstring : Bytes) :
    let evaluation := evaluate subroutines charstring
    let marks := contourMarks evaluation.commands
    marks = alternating marks.length ∧
    (ReachesEndCharacter subroutines charstring → marks.count .start = marks.count .stop) ∧
    (¬ReachesEndCharacter subroutines charstring → ∀ summary, evaluation.summary = .ok summary →
      ContourMark.start ∈ marks → marks.count .start = marks.count .stop + 1) := by
  rcases exists_conclusion subroutines (ofCharstring charstring) with
    ⟨count, last, reached, conclusion⟩
  have draws := Configuration.drawsContours reached
  rw [evaluate_eq_ofResult, reachesEndCharacter_iff]
  generalize run subroutines (ofCharstring charstring) = final at conclusion
  rcases final with ⟨result, machine⟩
  intro evaluation marks
  refine ⟨?_, ?_, ?_⟩
  · rcases conclusion.alternate draws with ⟨count, alternate⟩
    have alternate : marks = alternating count := alternate
    rw [alternate, length_alternating]
  · rintro rfl
    rcases conclusion.contours_of_endCharacter draws with ⟨closed, alternate⟩
    have alternate : marks = alternating (2 * closed) := alternate
    rw [alternate, (count_alternating _).1, (count_alternating _).2]
    omega
  · intro without summary succeeds mem
    rcases result with fault | ⟨⟩ | ⟨⟩
    · cases succeeds
    · exact absurd rfl without
    · rcases conclusion.contours_of_exhausted draws with ⟨-, none⟩ | ⟨-, closed, alternate⟩
      · have none : marks = [] := none
        rw [none] at mem
        cases mem
      · have alternate : marks = alternating (2 * closed + 1) := alternate
        rw [alternate, (count_alternating _).1, (count_alternating _).2]
        omega

/-- A contour that `endchar` closes, and one that is left open by the end of the charstring. -/
theorem evaluate_contours_ends :
    let closed := contourMarks (evaluate {} [149, 22, 14]).commands
    let isOpen := contourMarks (evaluate {} [149, 22]).commands
    closed.count .start = closed.count .stop ∧ isOpen.count .start = isOpen.count .stop + 1 := by
  have reached : (ofCharstring [149, 22]).advance? {} 2 = some _ := rfl
  have ends := (run_of_advance? reached).trans (run_of_conclusion (.exhaust rfl))
  refine ⟨(evaluate_contours {} [149, 22, 14]).2.1 ⟨2, _, _, rfl, rfl⟩,
    (evaluate_contours {} [149, 22]).2.2 ?_ {} ?_ ?_⟩
  · rw [reachesEndCharacter_iff, ends]
    nofun
  · rw [evaluate_eq_ofResult, ends]
    rfl
  · rw [evaluate_eq_ofResult, ends]
    decide

end Letterform.Charstring
