import Letterform.Proofs.Charstring.Faults

/-!
What the operators do to the machine. Those that look for a width are given by the
machine that they leave behind. Path operators add lines and curves to the commands,
and arithmetic stays within the stack, the storage and the random numbers.
-/

namespace Letterform.Charstring

open Cff (Fault Number)
open Charstring.Computation

/-! The width. -/

namespace Machine

/-- Looks for the width, which is the bottom operand if it is present. -/
def settle (isPresent : Bool) (machine : Machine) : Machine :=
  if machine.widthIsSettled then machine
  else if isPresent then
    match machine.stack.takeFirst with
    | .ok (width, stack) =>
        { machine with widthIsSettled := true, stack, width := some width.toFixed }
    | .error _ => { machine with widthIsSettled := true }
  else { machine with widthIsSettled := true }

theorem settle_of_settled {machine : Machine} (settled : machine.widthIsSettled = true)
    (isPresent : Bool) : machine.settle isPresent = machine := by
  rw [settle, if_pos settled]

theorem settle_absent {machine : Machine} (unsettled : machine.widthIsSettled = false) :
    machine.settle false = { machine with widthIsSettled := true } := by
  simp only [settle, unsettled, Bool.false_eq_true, if_false]

theorem settle_present {machine : Machine} (unsettled : machine.widthIsSettled = false)
    {width : Operand} {stack : Stack} (taken : machine.stack.takeFirst = .ok (width, stack)) :
    machine.settle true =
      { machine with widthIsSettled := true, stack, width := some width.toFixed } := by
  simp only [settle, unsettled, taken, Bool.false_eq_true, if_false, if_true]

theorem exists_settle (isPresent : Bool) (machine : Machine) :
    ∃ stack width, machine.settle isPresent =
      { machine with widthIsSettled := true, stack, width } := by
  by_cases settled : machine.widthIsSettled = true
  · refine ⟨machine.stack, machine.width, ?_⟩
    rw [settle_of_settled settled, ← settled]
  · simp only [settle, if_neg settled]
    split
    · split
      · exact ⟨_, _, rfl⟩
      · exact ⟨machine.stack, machine.width, rfl⟩
    · exact ⟨machine.stack, machine.width, rfl⟩

end Machine

namespace Action

theorem get_run {α : Type} (next : Machine → Action α) (machine : Machine) :
    (do next (← get) : Action α).run machine = (next machine).run machine :=
  rfl

theorem modify_run {α : Type} (change : Machine → Machine) (next : Action α) (machine : Machine) :
    (do modify change; next : Action α).run machine = next.run (change machine) :=
  rfl

theorem ofExcept_run {α : Type} (result : Except Fault α) (machine : Machine) :
    (ExceptT.mk (pure result) : Action α).run machine = (result, machine) :=
  rfl

theorem onStack_run {α : Type} (operation : Stack → Except Fault (α × Stack)) (machine : Machine) :
    (onStack operation).run machine = match operation machine.stack with
      | .ok found => (.ok found.1, { machine with stack := found.2 })
      | .error fault => (.error fault, machine) := by
  have whole : (onStack operation).run machine =
      (do
        let found ← ExceptT.mk (pure (operation machine.stack))
        modify fun machine => { machine with stack := found.2 }
        return found.1 : Action α).run machine := rfl
  rw [whole, run_bind, ofExcept_run]
  cases operation machine.stack with
  | ok parts => rfl
  | error fault => rfl

theorem settleWidth_run {isPresent : Bool} {machine : Machine}
    (present : isPresent = true → machine.stack.size ≠ 0) :
    (settleWidth isPresent).run machine = (.ok (), machine.settle isPresent) := by
  rw [settleWidth, get_run]
  by_cases settled : machine.widthIsSettled = true
  · rw [Machine.settle_of_settled settled, settled]
    rfl
  · rw [Bool.not_eq_true] at settled
    rw [settled]
    cases isPresent with
    | false =>
        rw [Machine.settle_absent settled]
        rfl
    | true =>
        cases taken : machine.stack.takeFirst with
        | error fault => exact absurd taken (Stack.takeFirst_ok (present rfl) fault)
        | ok parts =>
            rw [Machine.settle_present settled taken]
            show (do
              let width ← onStack Stack.takeFirst
              modify fun machine => { machine with width := some width.toFixed } :
              Action Unit).run { machine with widthIsSettled := true } = _
            rw [run_bind, onStack_run, taken]
            rfl

end Action

/-! Commands. -/

namespace Machine

def commands (machine : Machine) : List Command := machine.pen.commands.toList

def stemCount (machine : Machine) : Axis → Nat
  | .horizontal => machine.horizontalStems
  | .vertical => machine.verticalStems

def give (given : List Command) (machine : Machine) : Machine :=
  { machine with pen := { machine.pen with commands := machine.pen.commands ++ given } }

@[simp] theorem commands_settle (isPresent : Bool) (machine : Machine) :
    (machine.settle isPresent).commands = machine.commands := by
  rcases machine.exists_settle isPresent with ⟨_, _, settled⟩
  rw [settled]
  rfl

@[simp] theorem isOpen_settle (isPresent : Bool) (machine : Machine) :
    (machine.settle isPresent).isOpen = machine.isOpen := by
  rcases machine.exists_settle isPresent with ⟨_, _, settled⟩
  rw [settled]

@[simp] theorem stemCount_settle (isPresent : Bool) (machine : Machine) (axis : Axis) :
    (machine.settle isPresent).stemCount axis = machine.stemCount axis := by
  rcases machine.exists_settle isPresent with ⟨_, _, settled⟩
  rw [settled]
  rfl

@[simp] theorem commands_give (given : List Command) (machine : Machine) :
    (machine.give given).commands = machine.commands ++ given :=
  Array.toList_appendList

@[simp] theorem isOpen_give (given : List Command) (machine : Machine) :
    (machine.give given).isOpen = machine.isOpen :=
  rfl

@[simp] theorem stemCount_give (given : List Command) (machine : Machine) (axis : Axis) :
    (machine.give given).stemCount axis = machine.stemCount axis :=
  rfl

theorem give_give (first second : List Command) (machine : Machine) :
    (machine.give first).give second = machine.give (first ++ second) := by
  have commands : machine.pen.commands ++ first ++ second =
      machine.pen.commands ++ (first ++ second) := by
    apply Array.ext'
    rw [Array.toList_appendList, Array.toList_appendList, Array.toList_appendList,
      List.append_assoc]
  simp only [give, commands]

end Machine

def Stack.stems (axis : Axis) (stack : Stack) : List Command :=
  (Action.stemEdges .zero stack.toFixedList).map fun edge => .stem axis edge.1 edge.2

theorem Action.length_stemEdges (edge : Fixed) (operands : List Fixed) :
    (stemEdges edge operands).length = operands.length / 2 := by
  induction edge, operands using stemEdges.induct with
  | case1 edge distance extent rest induction =>
      rw [stemEdges, List.length_cons, induction, List.length_cons, List.length_cons]
      omega
  | case2 operands edge short =>
      rw [stemEdges.eq_2 edge operands short, List.length_nil]
      match operands with
      | [] => rfl
      | [_] => rw [List.length_singleton]
      | distance :: extent :: rest => exact absurd rfl (short distance extent rest)

theorem Stack.length_stems (axis : Axis) (stack : Stack) :
    (stack.stems axis).length = stack.size / 2 := by
  rw [stems, List.length_map, Action.length_stemEdges, length_toFixedList]

namespace Machine

def takeStems (axis : Axis) (machine : Machine) : Machine :=
  { Action.countStems axis (machine.stack.size / 2) (machine.give (machine.stack.stems axis)) with
    stack := .empty }

def openSubpath (machine : Machine) : Machine :=
  if machine.isOpen then machine.give [.close] else { machine with isOpen := true }

def moveTo (target : Point Fixed) (machine : Machine) : Machine :=
  { machine with
    stack := .empty
    pen := { position := target, commands := machine.pen.commands.push (.moveTo target) } }

def finish (machine : Machine) : Machine :=
  if machine.isOpen then { machine.give [.close] with isOpen := false, stack := .empty }
  else { machine with stack := .empty }

@[simp] theorem commands_takeStems (axis : Axis) (machine : Machine) :
    (machine.takeStems axis).commands = machine.commands ++ machine.stack.stems axis := by
  rw [← commands_give]
  cases axis with
  | horizontal | vertical => rfl

@[simp] theorem isOpen_takeStems (axis : Axis) (machine : Machine) :
    (machine.takeStems axis).isOpen = machine.isOpen := by
  cases axis with
  | horizontal | vertical => rfl

@[simp] theorem stemCount_takeStems (axis other : Axis) (machine : Machine) :
    (machine.takeStems axis).stemCount other =
      machine.stemCount other + if axis = other then (machine.stack.stems axis).length else 0 := by
  rw [Stack.length_stems]
  cases axis <;> cases other <;> rfl

@[simp] theorem commands_openSubpath (machine : Machine) :
    machine.openSubpath.commands =
      machine.commands ++ if machine.isOpen then [.close] else [] := by
  rw [openSubpath]
  split
  · exact machine.commands_give [.close]
  · exact (List.append_nil _).symm

@[simp] theorem isOpen_openSubpath (machine : Machine) : machine.openSubpath.isOpen = true := by
  rw [openSubpath]
  split
  · next isOpen => exact isOpen
  · rfl

@[simp] theorem stemCount_openSubpath (machine : Machine) (axis : Axis) :
    machine.openSubpath.stemCount axis = machine.stemCount axis := by
  rw [openSubpath]
  split
  · rfl
  · rfl

@[simp] theorem commands_moveTo (target : Point Fixed) (machine : Machine) :
    (machine.moveTo target).commands = machine.commands ++ [.moveTo target] :=
  Array.toList_push

@[simp] theorem isOpen_moveTo (target : Point Fixed) (machine : Machine) :
    (machine.moveTo target).isOpen = machine.isOpen :=
  rfl

@[simp] theorem stemCount_moveTo (target : Point Fixed) (machine : Machine) (axis : Axis) :
    (machine.moveTo target).stemCount axis = machine.stemCount axis :=
  rfl

@[simp] theorem commands_finish (machine : Machine) :
    machine.finish.commands = machine.commands ++ if machine.isOpen then [.close] else [] := by
  rw [finish]
  split
  · exact machine.commands_give [.close]
  · exact (List.append_nil _).symm

@[simp] theorem stemCount_finish (machine : Machine) (axis : Axis) :
    machine.finish.stemCount axis = machine.stemCount axis := by
  rw [finish]
  split
  · rfl
  · rfl

end Machine

namespace Action

theorem emit_run (command : Command) (machine : Machine) :
    (emit command).run machine = (.ok (), machine.give [command]) :=
  rfl

theorem emitStems_run (axis : Axis) (edges : List (Fixed × Fixed)) (machine : Machine) :
    (emitStems axis edges).run machine =
      (.ok (), machine.give (edges.map fun edge => .stem axis edge.1 edge.2)) := by
  induction edges generalizing machine with
  | nil => rfl
  | cons edge edges induction =>
      rw [emitStems, run_bind, emit_run]
      simp only
      rw [induction, Machine.give_give, List.map_cons, List.singleton_append]

theorem stems_run (axis : Axis) (machine : Machine) :
    (stems axis).run machine =
      (.ok (), (machine.settle machine.stack.hasOddSize).takeStems axis) := by
  have whole : (stems axis).run machine = (do
      settleWidth machine.stack.hasOddSize
      let stack := (← get).stack
      emitStems axis (stemEdges .zero stack.toFixedList)
      modify (countStems axis (stack.size / 2))
      clearStack : Action Unit).run machine := rfl
  have present : machine.stack.hasOddSize = true → machine.stack.size ≠ 0 := by
    intro odd
    simp only [Stack.hasOddSize, decide_eq_true_eq] at odd
    omega
  rw [whole, run_bind, settleWidth_run present]
  simp only
  rw [get_run, run_bind, emitStems_run]
  rfl

theorem openSubpath_run (machine : Machine) :
    openSubpath.run machine = (.ok (), machine.openSubpath) := by
  rw [openSubpath, get_run, Machine.openSubpath]
  split
  · rfl
  · rfl

theorem move_run (operator : MoveOperator) (machine : Machine) :
    (move operator).run machine =
      let opened := (machine.settle (machine.stack.size = moveOperands operator + 1)).openSubpath
      match moveTarget operator opened.stack.toFixedList opened.pen.position with
      | .ok target => (.ok (), opened.moveTo target)
      | .error fault => (.error fault, opened) := by
  have whole : (move operator).run machine = (do
      settleWidth (machine.stack.size = moveOperands operator + 1)
      openSubpath
      let machine ← get
      let target ← ExceptT.mk
        (pure (moveTarget operator machine.stack.toFixedList machine.pen.position))
      draw (Drawing.moveTo target)
      clearStack : Action Unit).run machine := rfl
  have present : decide (machine.stack.size = moveOperands operator + 1) = true →
      machine.stack.size ≠ 0 := by
    intro present
    simp only [decide_eq_true_eq] at present
    omega
  rw [whole, run_bind, settleWidth_run present]
  simp only
  rw [run_bind, openSubpath_run]
  simp only
  rw [get_run, run_bind, ofExcept_run]
  generalize moveTarget operator _ _ = target
  cases target with
  | ok target => rfl
  | error fault => rfl

theorem endCharacter_run (machine : Machine) :
    endCharacter.run machine =
      (.ok (), (machine.settle (machine.stack.size = 1 || machine.stack.size = 5)).finish) := by
  have whole : endCharacter.run machine = (do
      settleWidth (machine.stack.size = 1 || machine.stack.size = 5)
      if (← get).isOpen then
        modify fun machine => { machine with isOpen := false }
        emit .close
      clearStack : Action Unit).run machine := rfl
  have present : (decide (machine.stack.size = 1) || decide (machine.stack.size = 5)) = true →
      machine.stack.size ≠ 0 := by
    intro present
    simp only [Bool.or_eq_true, decide_eq_true_eq] at present
    omega
  rw [whole, run_bind, settleWidth_run present]
  simp only
  rw [get_run, Machine.finish]
  split
  · rfl
  · rfl

theorem path_run_drawing (operator : PathOperator) (machine : Machine) :
    (path operator).run machine =
      match (Drawing.path machine.stack.toFixedList operator).run machine.pen with
      | (.ok (), pen) => (.ok (), { machine with stack := .empty, pen })
      | (.error fault, pen) => (.error fault, { machine with pen }) := by
  have whole : (path operator).run machine = (do
      draw (Drawing.path machine.stack.toFixedList operator)
      clearStack : Action Unit).run machine := rfl
  have drawn (drawing : Drawing Unit) : (draw drawing).run machine =
      ((drawing.run machine.pen).1, { machine with pen := (drawing.run machine.pen).2 }) := rfl
  rw [whole, run_bind, drawn]
  rcases (Drawing.path machine.stack.toFixedList operator).run machine.pen with ⟨_ | _, pen⟩
  · rfl
  · rfl

end Action

/-! Arithmetic. -/

structure Workspace where
  stack : Stack
  storage : Vector Number storageSize
  random : UInt32

namespace Machine

def workspace (machine : Machine) : Workspace :=
  ⟨machine.stack, machine.storage, machine.random⟩

def withWorkspace (workspace : Workspace) (machine : Machine) : Machine :=
  { machine with
    stack := workspace.stack
    storage := workspace.storage
    random := workspace.random }

end Machine

namespace Action

variable {α β : Type}

/-- The action neither reads nor changes anything outside the workspace. -/
def IsLocal (action : Action α) : Prop :=
  ∀ machine other : Machine, action.run (other.withWorkspace machine.workspace) =
    ((action.run machine).1, other.withWorkspace (action.run machine).2.workspace)

namespace IsLocal

theorem pure (value : α) : IsLocal (Pure.pure value) := by
  intro machine other
  rfl

theorem bind {first : Action α} {next : α → Action β} (isLocal : first.IsLocal)
    (nextLocal : ∀ value, (next value).IsLocal) : IsLocal (first >>= next) := by
  intro machine other
  rw [run_bind, run_bind, isLocal machine other]
  rcases first.run machine with ⟨_ | value, after⟩
  · rfl
  · exact nextLocal value after other

theorem ofExcept (result : Except Fault α) :
    IsLocal (ExceptT.mk (Pure.pure result) : Action α) := by
  intro machine other
  rfl

theorem onStack (operation : Stack → Except Fault (α × Stack)) : IsLocal (onStack operation) := by
  intro machine other
  rw [onStack_run, onStack_run]
  have same : (other.withWorkspace machine.workspace).stack = machine.stack := rfl
  rw [same]
  cases operation machine.stack with
  | ok parts => rfl
  | error fault => rfl

theorem push (number : Number) : IsLocal (push number) := by
  intro machine other
  rfl

theorem popNumber : IsLocal popNumber := .bind (.onStack _) fun _ => .pure _

theorem popFloat : IsLocal popFloat := .bind .popNumber fun _ => .pure _

theorem popInt32 : IsLocal popInt32 := .bind (.onStack _) fun _ => .pure _

theorem binary (operation : Number → Number → Number) : IsLocal (binary operation) :=
  .bind .popNumber fun _ => .bind .popNumber fun _ => .push _

theorem arithmetic (operator : ArithmeticOperator) : IsLocal (arithmetic operator) := by
  cases operator with
  | and | or | equal | add | subtract | multiply | divide => exact .binary _
  | not | squareRoot => exact .bind .popFloat fun _ => .push _
  | abs | negate => exact .bind .popNumber fun _ => .push _
  | drop => exact .bind .popNumber fun _ => .pure _
  | duplicate | exchange =>
      rw [Action.arithmetic]
      exact .onStack _
  | put =>
      refine .bind .popInt32 fun _ => .bind .popNumber fun _ => .bind (.ofExcept _) fun _ => ?_
      intro machine other
      rfl
  | get =>
      refine .bind .popInt32 fun _ => .bind (.ofExcept _) fun _ => ?_
      intro machine other
      rfl
  | random =>
      intro machine other
      rfl

theorem after_eq {action : Action α} (isLocal : action.IsLocal) (machine : Machine) :
    (action.run machine).2 = machine.withWorkspace (action.run machine).2.workspace :=
  congrArg Prod.snd (isLocal machine machine)

end IsLocal

end Action

/-! Paths. -/

def Command.IsSegment : Command → Prop
  | .lineTo _ | .curveTo _ _ _ => True
  | .moveTo _ | .close | .stem _ _ _ | .mask _ _ => False

namespace Drawing

variable {α β : Type}

def GivesSegments (drawing : Drawing α) : Prop :=
  ∀ pen, ∃ segments, (drawing.run pen).2.commands.toList = pen.commands.toList ++ segments ∧
    ∀ command ∈ segments, command.IsSegment

namespace GivesSegments

theorem of_unchanged {drawing : Drawing α}
    (unchanged : ∀ pen, (drawing.run pen).2.commands = pen.commands) : drawing.GivesSegments := by
  intro pen
  exact ⟨[], by rw [unchanged, List.append_nil], nofun⟩

theorem pure (value : α) : GivesSegments (Pure.pure value) := of_unchanged fun _ => rfl

theorem throw (fault : Fault) : GivesSegments (throw fault : Drawing α) :=
  of_unchanged fun _ => rfl

theorem position : GivesSegments position := of_unchanged fun _ => rfl

theorem bind {first : Drawing α} {next : α → Drawing β} (gives : first.GivesSegments)
    (givesNext : ∀ value, (next value).GivesSegments) : GivesSegments (first >>= next) := by
  intro pen
  rcases gives pen with ⟨segments, given, allSegments⟩
  rw [run_bind]
  generalize first.run pen = result at given
  rcases result with ⟨_ | value, middle⟩
  · exact ⟨segments, given, allSegments⟩
  · rcases givesNext value middle with ⟨others, givenNext, allOthers⟩
    refine ⟨segments ++ others, ?_, ?_⟩
    · rw [givenNext, given, List.append_assoc]
    · intro command mem
      rcases List.mem_append.mp mem with mem | mem
      · exact allSegments command mem
      · exact allOthers command mem

theorem of_push {change : Pen → Pen} (command : Command) (isSegment : command.IsSegment)
    (pushes : ∀ pen, (change pen).commands = pen.commands.push command) :
    GivesSegments (modify change) := by
  intro pen
  refine ⟨[command], ?_, ?_⟩
  · show (change pen).commands.toList = _
    rw [pushes, Array.toList_push]
  · intro other mem
    rw [List.mem_singleton.mp mem]
    exact isSegment

theorem lineTo (point : Point Fixed) : GivesSegments (lineTo point) :=
  of_push (.lineTo point) trivial fun _ => rfl

theorem curveTo (first second last : Point Fixed) : GivesSegments (curveTo first second last) :=
  of_push (.curveTo first second last) trivial fun _ => rfl

theorem lines (operands : List Fixed) : GivesSegments (lines operands) := by
  induction operands using lines.induct with
  | case1 dx dy rest induction =>
      exact .bind .position fun _ => .bind (.lineTo _) fun _ => induction
  | case2 => exact .pure _
  | case3 => exact .throw _

theorem alternatingLines (axis : Axis) (operands : List Fixed) :
    GivesSegments (alternatingLines axis operands) := by
  induction operands generalizing axis with
  | nil => exact .pure _
  | cons distance rest induction =>
      exact .bind .position fun _ => .bind (.lineTo _) fun _ => induction axis.other

theorem curves (operands : List Fixed) : GivesSegments (curves operands) := by
  induction operands using curves.induct with
  | case1 dx1 dy1 dx2 dy2 dx3 dy3 rest induction =>
      exact .bind .position fun _ => .bind (.curveTo _ _ _) fun _ => induction
  | case2 operands short =>
      rw [curves.eq_2 operands short]
      exact .pure _

theorem straightCurves (axis : Axis) (operands : List Fixed) :
    GivesSegments (straightCurves axis operands) := by
  induction operands using straightCurves.induct with
  | case1 distance dx dy last rest induction =>
      exact .bind .position fun _ => .bind (.curveTo _ _ _) fun _ => induction
  | case2 operands short =>
      rw [straightCurves.eq_2 axis operands short]
      exact .pure _

theorem turningCurves (axis : Axis) (operands : List Fixed) :
    GivesSegments (turningCurves axis operands) := by
  induction axis, operands using turningCurves.induct with
  | case1 axis distance dx dy last extra => exact .bind .position fun _ => .curveTo _ _ _
  | case2 axis distance dx dy last rest notLast induction =>
      rw [turningCurves.eq_2 axis distance dx dy last rest notLast]
      exact .bind .position fun _ => .bind (.curveTo _ _ _) fun _ => induction
  | case3 operands axis notLast short =>
      rw [turningCurves.eq_3 axis operands notLast short]
      exact .pure _

theorem require (count : Nat) (operands : List Fixed) : GivesSegments (require count operands) := by
  unfold Drawing.require
  split
  · exact .throw _
  · exact .pure _

theorem path (operands : List Fixed) (operator : PathOperator) :
    GivesSegments (path operands operator) := by
  cases operator with
  | lines => exact .bind (.require _ _) fun _ => .lines operands
  | alternatingLines axis => exact .bind (.require _ _) fun _ => .alternatingLines axis operands
  | curves => exact .bind (.require _ _) fun _ => .bind (.curves operands) fun _ => .pure _
  | curvesThenLine =>
      refine .bind (.require _ _) fun _ => .bind (.curves operands) fun rest => ?_
      split
      · exact .bind .position fun _ => .lineTo _
      · exact .throw _
  | linesThenCurve =>
      exact .bind (.require _ _) fun _ => .bind (.lines _) fun _ =>
        .bind (.curves _) fun _ => .pure _
  | straightCurves axis =>
      simp only [Drawing.path]
      split
      · exact .bind (.require _ _) fun _ =>
          .bind (of_unchanged fun _ => rfl) fun _ => .straightCurves axis _
      · exact .bind (.require _ _) fun _ => .straightCurves axis operands
  | turningCurves axis => exact .bind (.require _ _) fun _ => .turningCurves axis operands
  | flex | flexHorizontal | flexHorizontalShort | flexShort =>
      simp only [Drawing.path, flex, flexHorizontal, flexHorizontalShort, flexShort]
      split
      · exact .bind .position fun _ => .bind (.curveTo _ _ _) fun _ => .curveTo _ _ _
      · exact .throw _

end GivesSegments

end Drawing

end Letterform.Charstring
