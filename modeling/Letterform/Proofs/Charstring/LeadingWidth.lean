import Letterform.Proofs.Charstring.Conclusion
import Letterform.Proofs.Charstring.Underneath

/-!
A width in front of a charstring. The first operator that clears the stack looks for
the width underneath its operands. A run with an operand in front of the charstring
goes like the run without, with the operand underneath the stack up to that operator
and as the width from then on.
-/

namespace Letterform.Charstring

open Cff (Fault)

variable {subroutines : Subroutines}

def Operator.clearsStack : Operator → Bool
  | .stems _ | .mask _ | .move _ | .path _ | .endCharacter => true
  | .call _ | .return | .arithmetic _ | .ignored _ => false

/-- The operator looks for a width, and with so many operands there is none. -/
def Operator.HasNoWidth : Operator → (size : Nat) → Prop
  | .stems _, size | .mask _, size => size % 2 = 0
  | .move .both, size => size = 2
  | .move (.along _), size => size = 1
  | .endCharacter, size => size = 0 ∨ size = 4
  | .path _, _ | .call _, _ | .return, _ | .arithmetic _, _ | .ignored _, _ => False

/-! Machines that differ in the width. -/

/-- The second machine has found a width where the first one has not. -/
inductive Widened (width : Fixed) (machine : Machine) : Machine → Prop
  | intro (settled : machine.widthIsSettled = true) (missing : machine.width = none) :
      Widened width machine { machine with width := some width }

namespace Widened

variable {width : Fixed} {first second : Machine}

theorem settle (widened : Widened width first second) (isPresent other : Bool) :
    Widened width (first.settle isPresent) (second.settle other) := by
  cases widened with
  | intro settled missing =>
      have otherSettled : ({ first with width := some width } : Machine).widthIsSettled = true :=
        settled
      rw [Machine.settle_of_settled settled, Machine.settle_of_settled otherSettled]
      exact ⟨settled, missing⟩

theorem takeStems (widened : Widened width first second) (axis : Axis) :
    Widened width (first.takeStems axis) (second.takeStems axis) := by
  cases widened with
  | intro settled missing =>
      cases axis with
      | horizontal | vertical => exact ⟨settled, missing⟩

theorem openSubpath (widened : Widened width first second) :
    Widened width first.openSubpath second.openSubpath := by
  cases widened with
  | intro settled missing =>
      simp only [Machine.openSubpath]
      split
      · exact ⟨settled, missing⟩
      · exact ⟨settled, missing⟩

theorem finish (widened : Widened width first second) :
    Widened width first.finish second.finish := by
  cases widened with
  | intro settled missing =>
      simp only [Machine.finish]
      split
      · exact ⟨settled, missing⟩
      · exact ⟨settled, missing⟩

end Widened

namespace Action

def GoesAlike (related : Machine → Machine → Prop) (action : Action Unit)
    (first second : Machine) : Prop :=
  (action.run second).1 = (action.run first).1 ∧
    related (action.run first).2 (action.run second).2

theorem GoesAlike.ok {related : Machine → Machine → Prop} {action : Action Unit}
    {first second after : Machine} (alike : action.GoesAlike related first second)
    (performed : action.run first = (.ok (), after)) :
    ∃ other, action.run second = (.ok (), other) ∧ related after other := by
  rcases alike with ⟨same, relates⟩
  rw [performed] at same relates
  exact ⟨(action.run second).2, Prod.ext same rfl, relates⟩

/-- Where the width has been looked for, the action pays no attention to it. -/
def PassesWidth (action : Action Unit) : Prop :=
  ∀ width first second, Widened width first second → action.GoesAlike (Widened width) first second

theorem stems_passesWidth (axis : Axis) : (stems axis).PassesWidth := by
  intro width first second widened
  unfold GoesAlike
  rw [stems_run, stems_run]
  exact ⟨rfl, (widened.settle _ _).takeStems axis⟩

theorem move_passesWidth (operator : MoveOperator) : (move operator).PassesWidth := by
  intro width first second widened
  unfold GoesAlike
  rw [move_run, move_run]
  simp only
  have opened := (widened.settle (first.stack.size = moveOperands operator + 1)
    (second.stack.size = moveOperands operator + 1)).openSubpath
  generalize (first.settle _).openSubpath = first, (second.settle _).openSubpath = second at opened
  cases opened with
  | intro settled missing =>
      simp only
      cases moveTarget operator first.stack.toFixedList first.pen.position with
      | ok target => exact ⟨rfl, settled, missing⟩
      | error fault => exact ⟨rfl, settled, missing⟩

theorem endCharacter_passesWidth : endCharacter.PassesWidth := by
  intro width first second widened
  unfold GoesAlike
  rw [endCharacter_run, endCharacter_run]
  exact ⟨rfl, (widened.settle _ _).finish⟩

theorem path_passesWidth (operator : PathOperator) : (path operator).PassesWidth := by
  rintro width _ _ ⟨settled, missing⟩
  unfold GoesAlike
  rw [path_run_drawing, path_run_drawing]
  simp only
  generalize (Drawing.path _ operator).run _ = drawn
  rcases drawn with ⟨_ | _, pen⟩
  · exact ⟨rfl, settled, missing⟩
  · exact ⟨rfl, settled, missing⟩

theorem IsLocal.passesWidth {action : Action Unit} (isLocal : action.IsLocal) :
    action.PassesWidth := by
  rintro width first _ ⟨settled, missing⟩
  have same : action.run { first with width := some width } = _ :=
    isLocal first { first with width := some width }
  refine ⟨by rw [same], ?_⟩
  rw [same, isLocal.after_eq first]
  exact ⟨settled, missing⟩

theorem ignore_passesWidth (operator : IgnoredOperator) : (ignore operator).PassesWidth := by
  rintro width _ _ ⟨settled, missing⟩
  exact ⟨rfl, settled, missing⟩

end Action

theorem Operator.passesWidth {operator : Operator} {action : Action Unit}
    (acts : operator.action? = some action) : action.PassesWidth := by
  cases operator with
  | stems axis =>
      cases acts
      exact Action.stems_passesWidth axis
  | move operator =>
      cases acts
      exact Action.move_passesWidth operator
  | path operator =>
      cases acts
      exact Action.path_passesWidth operator
  | arithmetic operator =>
      cases acts
      exact (Action.IsLocal.arithmetic operator).passesWidth
  | ignored operator =>
      cases acts
      exact Action.ignore_passesWidth operator
  | mask _ | call _ | «return» | endCharacter => cases acts

namespace Widened

theorem carries (width : Fixed) : Carries (fun _ => True) (fun _ => True) (Widened width) where
  push operand relates _ := by
    cases relates with
    | intro settled missing => exact ⟨settled, missing⟩
  pop relates popped := by
    cases relates with
    | intro settled missing => exact ⟨_, popped, settled, missing⟩
  act _ acts relates performed _ := (Operator.passesWidth acts width _ _ relates).ok performed
  mask _ relates performed := by
    rcases (Action.stems_passesWidth .vertical width _ _ relates).ok performed with
      ⟨other, otherPerformed, widened⟩
    cases widened with
    | intro settled missing => exact ⟨_, otherPerformed, rfl, fun _ => ⟨settled, missing⟩⟩

end Widened

/-! Looking for the width. -/

namespace Underlaid

variable {operand : Operand} {first second : Machine}

/-- Up to the first operator that clears the stack, the operand stays underneath. -/
theorem carries (operand : Operand) :
    Carries (fun operator => operator.clearsStack = false)
      (fun machine => machine.stack.size ≤ 47) (Underlaid operand) where
  push pushed relates room := relates.push pushed (Nat.lt_succ_of_le room)
  pop relates popped := relates.pop popped
  act {_ _ after operator _} isPermitted acts relates performed room := by
    cases operator with
    | arithmetic operator =>
        cases acts
        exact Action.WorksAbove.arithmetic operator operand _ _ relates () after performed room
    | ignored operator =>
        cases acts
        cases performed
        cases relates with
        | intro unsettled missing operands => exact ⟨_, rfl, unsettled, missing, operands⟩
    | stems _ | mask _ | move _ | path _ | endCharacter => cases isPermitted
    | call _ | «return» => cases acts
  mask isPermitted := nomatch isPermitted

theorem settle (underlaid : Underlaid operand first second) :
    Widened operand.toFixed (first.settle false) (second.settle true) := by
  cases underlaid with
  | @intro stack unsettled missing operands =>
      have otherUnsettled : ({ first with stack } : Machine).widthIsSettled = false := unsettled
      rw [Machine.settle_absent unsettled,
        Machine.settle_present otherUnsettled (Stack.takeFirst_of_cons operands)]
      exact ⟨rfl, missing⟩

end Underlaid

theorem Machine.settle_settle (machine : Machine) (isPresent other : Bool) :
    (machine.settle isPresent).settle other = machine.settle isPresent := by
  apply settle_of_settled
  rcases machine.exists_settle isPresent with ⟨_, _, settled⟩
  rw [settled]

def Action.LooksForWidth (isPresent : Nat → Bool) (action : Action Unit) : Prop :=
  ∀ machine : Machine, action.run machine = action.run (machine.settle (isPresent machine.stack.size))

namespace Action.LooksForWidth

theorem stems (axis : Axis) : (stems axis).LooksForWidth fun size => size % 2 = 1 := by
  intro machine
  rw [stems_run, stems_run, Machine.settle_settle]
  rfl

theorem move (operator : MoveOperator) :
    (move operator).LooksForWidth fun size => size = moveOperands operator + 1 := by
  intro machine
  rw [move_run, move_run, Machine.settle_settle]

theorem endCharacter : endCharacter.LooksForWidth fun size => size = 1 || size = 5 := by
  intro machine
  rw [endCharacter_run, endCharacter_run, Machine.settle_settle]

theorem goesAlike {action : Action Unit} {isPresent : Nat → Bool}
    (looks : action.LooksForWidth isPresent) (passes : action.PassesWidth) {operand : Operand}
    {first second : Machine} (underlaid : Underlaid operand first second)
    (absent : isPresent first.stack.size = false)
    (present : isPresent (first.stack.size + 1) = true) :
    action.GoesAlike (Widened operand.toFixed) first second := by
  unfold GoesAlike
  rw [looks first, looks second, absent, underlaid.size, present]
  exact passes operand.toFixed _ _ underlaid.settle

end Action.LooksForWidth

namespace Underlaid

variable {operand : Operand} {first second : Machine}

theorem stems_goesAlike (underlaid : Underlaid operand first second) (axis : Axis)
    (even : first.stack.size % 2 = 0) :
    (Action.stems axis).GoesAlike (Widened operand.toFixed) first second := by
  apply (Action.LooksForWidth.stems axis).goesAlike (Action.stems_passesWidth axis) underlaid
  · exact decide_eq_false (by omega)
  · exact decide_eq_true (by omega)

theorem move_goesAlike (underlaid : Underlaid operand first second) (operator : MoveOperator)
    (exact_ : first.stack.size = Action.moveOperands operator) :
    (Action.move operator).GoesAlike (Widened operand.toFixed) first second := by
  apply (Action.LooksForWidth.move operator).goesAlike (Action.move_passesWidth operator) underlaid
  · exact decide_eq_false (by omega)
  · exact decide_eq_true (by omega)

theorem endCharacter_goesAlike (underlaid : Underlaid operand first second)
    (size : first.stack.size = 0 ∨ first.stack.size = 4) :
    Action.endCharacter.GoesAlike (Widened operand.toFixed) first second := by
  apply Action.LooksForWidth.endCharacter.goesAlike Action.endCharacter_passesWidth underlaid
  · rcases size with size | size
    · rw [size]
      rfl
    · rw [size]
      rfl
  · rcases size with size | size
    · rw [size]
      rfl
    · rw [size]
      rfl

end Underlaid

theorem Underlaid.action_goesAlike {operand : Operand} {first second : Machine}
    (underlaid : Underlaid operand first second) {operator : Operator} {action : Action Unit}
    (acts : operator.action? = some action) (noWidth : operator.HasNoWidth first.stack.size) :
    action.GoesAlike (Widened operand.toFixed) first second := by
  cases operator with
  | stems axis =>
      cases acts
      exact underlaid.stems_goesAlike axis noWidth
  | move operator =>
      cases acts
      apply underlaid.move_goesAlike operator
      cases operator with
      | both | along _ => exact noWidth
  | path _ | arithmetic _ | ignored _ => cases noWidth
  | mask _ | call _ | «return» | endCharacter => cases acts

/-- Where an operator finds all its operands and no width, the run with the operand underneath goes
on as well, with the operand as the width. -/
theorem Alongside.clear {operand : Operand} {first next second : Configuration}
    (alongside : Alongside (Underlaid operand) first second)
    (transition : Transition subroutines first next) {operator : Operator} {cursor : Cursor}
    (token : Token.decoder.run first.cursor = (.ok (.operator operator), cursor))
    (noWidth : operator.HasNoWidth first.machine.stack.size) :
    ∃ after, Transition subroutines second after ∧
      Alongside (Widened operand.toFixed) next after := by
  have underlaid := alongside.machine
  cases transition with
  | exhaust exhausted => exact absurd exhausted (Token.decoder_nonempty token)
  | operand other => cases other.symm.trans token
  | act other acts performed =>
      cases other.symm.trans token
      rcases (underlaid.action_goesAlike acts noWidth).ok performed with
        ⟨_, otherPerformed, widened⟩
      exact alongside.act token acts otherPerformed widened
  | mask other performed taken emitted =>
      cases other.symm.trans token
      rcases (underlaid.stems_goesAlike .vertical noWidth).ok performed with
        ⟨_, otherPerformed, widened⟩
      cases emitted
      cases widened with
      | intro settled missing =>
          exact alongside.mask token taken otherPerformed rfl ⟨settled, missing⟩
  | call other | «return» other =>
      cases other.symm.trans token
      cases noWidth

/-! The ends of the runs. -/

theorem Alongside.conclude {width : Fixed} {first second : Configuration}
    (alongside : Alongside (Widened width) first second) {ending : Ending} {machine : Machine}
    (conclusion : Conclusion subroutines first (.ok ending, machine)) :
    ∃ other, Conclusion subroutines second (.ok ending, other) ∧ Widened width machine other := by
  rcases second with ⟨cursor, callers, otherMachine⟩
  rcases alongside with ⟨agrees, agree, widened⟩
  cases conclusion with
  | exhaust exhausted =>
      cases agree with
      | nil => exact ⟨_, .exhaust (agrees.1.symm.trans exhausted), widened⟩
  | «return» token =>
      rcases Token.decoder_isRegular.blind.run_ok agrees token with ⟨_, otherToken, -⟩
      cases agree with
      | nil => exact ⟨_, .return otherToken, widened⟩
  | endCharacter token performed =>
      rcases Token.decoder_isRegular.blind.run_ok agrees token with ⟨_, otherToken, -⟩
      rcases (Action.endCharacter_passesWidth width _ _ widened).ok performed with
        ⟨other, otherPerformed, widenedAfter⟩
      exact ⟨other, .endCharacter otherToken otherPerformed, widenedAfter⟩

theorem Alongside.clearAndConclude {operand : Operand} {first second : Configuration}
    (alongside : Alongside (Underlaid operand) first second) {operator : Operator}
    {cursor : Cursor} (token : Token.decoder.run first.cursor = (.ok (.operator operator), cursor))
    (noWidth : operator.HasNoWidth first.machine.stack.size) {ending : Ending} {machine : Machine}
    (conclusion : Conclusion subroutines first (.ok ending, machine)) :
    ∃ other, Conclusion subroutines second (.ok ending, other) ∧
      Widened operand.toFixed machine other := by
  rcases second with ⟨otherCursor, callers, otherMachine⟩
  rcases alongside with ⟨agrees, agree, underlaid⟩
  cases conclusion with
  | exhaust exhausted => exact absurd exhausted (Token.decoder_nonempty token)
  | «return» other =>
      cases other.symm.trans token
      cases noWidth
  | endCharacter other performed =>
      cases other.symm.trans token
      rcases Token.decoder_isRegular.blind.run_ok agrees token with ⟨_, otherToken, -⟩
      rcases (underlaid.endCharacter_goesAlike noWidth).ok performed with
        ⟨other, otherPerformed, widened⟩
      exact ⟨other, .endCharacter otherToken otherPerformed, widened⟩

open Charstring.Configuration

/-- The run comes to this operator after so many steps. It clears the stack, and no operator before
it does. -/
structure FirstClears (subroutines : Subroutines) (charstring : Bytes) (count : Nat)
    (clearing : Configuration) (operator : Operator) : Prop where
  reached : (ofCharstring charstring).advance? subroutines count = some clearing
  token : ∃ next, Token.decoder.run clearing.cursor = (.ok (.operator operator), next)
  clears : operator.clearsStack = true
  first : ∀ earlier < count, ∀ before,
    (ofCharstring charstring).advance? subroutines earlier = some before → ∀ operator next,
      Token.decoder.run before.cursor = (.ok (.operator operator), next) →
        operator.clearsStack = false

def HasRoom (subroutines : Subroutines) (charstring : Bytes) (count : Nat) : Prop :=
  ∀ earlier ≤ count, ∀ before,
    (ofCharstring charstring).advance? subroutines earlier = some before →
      before.machine.stack.size ≤ 47

section

variable {charstring number : Bytes} {operand : Operand} {count : Nat} {clearing : Configuration}
  {operator : Operator}

theorem FirstClears.alongside
    (clears : FirstClears subroutines charstring count clearing operator)
    (isNumber : Token.decoder.Reads number (.operand operand))
    (room : HasRoom subroutines charstring count) :
    ∃ other, (ofCharstring (number ++ charstring)).advance? subroutines (count + 1) = some other ∧
      Alongside (Underlaid operand) clearing other := by
  have pushes : Transition subroutines (ofCharstring (number ++ charstring)) _ :=
    .operand (isNumber charstring 0)
  have start : Alongside (Underlaid operand) (ofCharstring charstring)
      ⟨{ rest := charstring, position := 0 + number.length }, [],
        { stack := Stack.empty.push operand }⟩ := ⟨⟨rfl, rfl⟩, .nil, rfl, rfl, rfl⟩
  rcases (Underlaid.carries operand).advance? start clears.reached clears.first room with
    ⟨other, reached, alongside⟩
  exact ⟨other, advance?_succ.mpr ⟨_, pushes, reached⟩, alongside⟩

/-- From the operator that clears the stack on, the number is the width. -/
theorem FirstClears.widened
    (clears : FirstClears subroutines charstring count clearing operator)
    (isNumber : Token.decoder.Reads number (.operand operand))
    (noWidth : operator.HasNoWidth clearing.machine.stack.size)
    (room : HasRoom subroutines charstring count)
    {later : Nat} {last : Configuration}
    (reached : (ofCharstring charstring).advance? subroutines (count + 1 + later) = some last) :
    ∃ other,
      (ofCharstring (number ++ charstring)).advance? subroutines (count + 2 + later) = some other ∧
        Alongside (Widened operand.toFixed) last other := by
  rw [advance?_add] at reached
  rcases Option.bind_eq_some_iff.mp reached with ⟨next, reachedNext, reachedLast⟩
  rcases advance?_succ_last.mp reachedNext with ⟨before, reachedBefore, transition⟩
  cases reachedBefore.symm.trans clears.reached
  rcases clears.alongside isNumber room with ⟨otherBefore, otherReachedBefore, alongside⟩
  rcases clears.token with ⟨_, token⟩
  rcases alongside.clear transition token noWidth with
    ⟨otherNext, otherTransition, alongsideNext⟩
  rcases (Widened.carries operand.toFixed).advance? alongsideNext reachedLast
    (fun _ _ _ _ _ _ _ => trivial) (fun _ _ _ _ => trivial) with
    ⟨other, otherReachedLast, alongsideLast⟩
  refine ⟨other, ?_, alongsideLast⟩
  rw [advance?_add, advance?_succ_last.mpr ⟨_, otherReachedBefore, otherTransition⟩]
  exact otherReachedLast

theorem FirstClears.run_widened
    (clears : FirstClears subroutines charstring count clearing operator)
    (isNumber : Token.decoder.Reads number (.operand operand))
    (noWidth : operator.HasNoWidth clearing.machine.stack.size)
    (room : HasRoom subroutines charstring count)
    {ending : Ending} {machine : Machine}
    (succeeds : (ofCharstring charstring).run subroutines = (.ok ending, machine)) :
    ∃ other, (ofCharstring (number ++ charstring)).run subroutines = (.ok ending, other) ∧
      Widened operand.toFixed machine other := by
  rcases exists_conclusion subroutines (ofCharstring charstring) with
    ⟨total, last, ended, conclusion⟩
  rw [succeeds] at conclusion
  have bound := le_of_conclusion ended conclusion clears.reached
  rcases Nat.eq_or_lt_of_le bound with rfl | beyond
  -- The operator that clears the stack is itself the last one, which only `endchar` can be.
  · cases ended.symm.trans clears.reached
    rcases clears.token with ⟨_, token⟩
    rcases clears.alongside isNumber room with ⟨otherLast, otherReached, alongside⟩
    rcases alongside.clearAndConclude token noWidth conclusion with ⟨other, concludes, widened⟩
    exact ⟨other, (run_of_advance? otherReached).trans (run_of_conclusion concludes), widened⟩
  · obtain ⟨later, rfl⟩ : ∃ later, total = count + 1 + later := ⟨total - (count + 1), by omega⟩
    rcases clears.widened isNumber noWidth room ended with ⟨otherLast, otherReached, alongside⟩
    rcases alongside.conclude conclusion with ⟨other, concludes, widened⟩
    exact ⟨other, (run_of_advance? otherReached).trans (run_of_conclusion concludes), widened⟩

/-- If the first operator that clears the stack looks for a width and there is none, then a number
in front of the charstring is the width, and makes no other difference. The stack has to have room
for the number. Operators after the first one do not take a width. -/
theorem evaluate_leadingWidth {summary : Summary}
    (isNumber : Token.decoder.Reads number (.operand operand))
    (succeeds : (evaluate subroutines charstring).summary = .ok summary)
    (clears : FirstClears subroutines charstring count clearing operator)
    (noWidth : operator.HasNoWidth clearing.machine.stack.size)
    (room : HasRoom subroutines charstring count) :
    summary.width = none ∧
    evaluate subroutines (number ++ charstring) =
      { commands := (evaluate subroutines charstring).commands
        summary := .ok { summary with width := some operand.toFixed } } ∧
    ∀ later last, (ofCharstring charstring).advance? subroutines (count + 1 + later) = some last →
      last.machine.width = none ∧
      ∃ other,
        (ofCharstring (number ++ charstring)).advance? subroutines (count + 2 + later) =
          some other ∧
        other.machine = { last.machine with width := some operand.toFixed } := by
  rcases result : (ofCharstring charstring).run subroutines with ⟨fault | ending, machine⟩
  · rw [evaluate_eq_ofResult, result] at succeeds
    cases succeeds
  · rw [evaluate_eq_ofResult, result] at succeeds
    cases succeeds
    rcases clears.run_widened isNumber noWidth room result with ⟨other, otherResult, widened⟩
    rw [evaluate_eq_ofResult, evaluate_eq_ofResult, result, otherResult]
    refine ⟨?_, ?_, ?_⟩
    · cases widened with
      | intro settled missing => exact missing
    · cases widened with
      | intro settled missing => rfl
    · intro later last reached
      rcases clears.widened isNumber noWidth room reached with ⟨other, otherReached, alongside⟩
      rcases other with ⟨cursor, callers, otherMachine⟩
      rcases alongside with ⟨-, -, widened⟩
      cases widened with
      | intro settled missing => exact ⟨missing, _, otherReached, rfl⟩

end

/-- A fixed-point number in front of a move, a line and an `endchar`. -/
theorem evaluate_leadingWidth_move :
    evaluate {} ([255, 0, 1, 128, 0] ++ [149, 22, 150, 6, 14]) =
      { commands := (evaluate {} [149, 22, 150, 6, 14]).commands
        summary := .ok { width := some ⟨98304⟩ } } := by
  have reached : (ofCharstring [149, 22, 150, 6, 14]).advance? {} 4 = some _ := rfl
  have ends := (run_of_advance? reached).trans
    (run_of_conclusion (.endCharacter rfl (Action.endCharacter_run _)))
  have succeeds : (evaluate {} [149, 22, 150, 6, 14]).summary = .ok {} := by
    rw [evaluate_eq_ofResult, ends]
    rfl
  have isNumber : Token.decoder.Reads [255, 0, 1, 128, 0] (.operand (.fixed ⟨98304⟩)) :=
    Token.decoder_reads_fixed ⟨98304⟩
  have clears : FirstClears {} [149, 22, 150, 6, 14] 1 _ (.move (.along .horizontal)) := {
    reached := rfl
    token := ⟨_, rfl⟩
    clears := rfl
    first := by
      intro earlier bound before reached operator next token
      cases Nat.lt_one_iff.mp bound
      cases reached
      cases token }
  refine (evaluate_leadingWidth isNumber succeeds clears rfl ?_).2.1
  intro earlier bound before reached
  rcases Nat.le_one_iff_eq_zero_or_eq_one.mp bound with rfl | rfl
  · cases reached
    exact Nat.le_of_ble_eq_true rfl
  · cases reached
    exact Nat.le_of_ble_eq_true rfl

end Letterform.Charstring
