import Letterform.Proofs.Charstring.Effect
import Letterform.Proofs.Charstring.Stack
import Letterform.Proofs.Number.Fixed
import Mathlib.Data.List.Basic
import Mathlib.Tactic.Abel

/-!
Path operators as strokes. Most path operators leave out coordinates that are zero or
that follow from the others. With these filled in, an operator is a list of single
strokes, and it draws what the operators for one line and one curve draw stroke by
stroke.
-/

namespace Letterform.Charstring

open Cff (Fault)

def Axis.way : Axis → (along across : Fixed) → Point Fixed
  | .horizontal, along, across => ⟨along, across⟩
  | .vertical, along, across => ⟨across, along⟩

/-- A line or a curve, by the way from each of its points to the next. -/
inductive Stroke
  | line (way : Point Fixed)
  | curve (first second last : Point Fixed)
  deriving DecidableEq, Repr

namespace Stroke

def operator : Stroke → PathOperator
  | .line _ => .lines
  | .curve _ _ _ => .curves

def operands : Stroke → List Fixed
  | .line way => [way.x, way.y]
  | .curve first second last => [first.x, first.y, second.x, second.y, last.x, last.y]

/-! The strokes of the operators. -/

def lines : List Fixed → List Stroke
  | dx :: dy :: rest => .line ⟨dx, dy⟩ :: lines rest
  | _ => []

def alternatingLines : Axis → List Fixed → List Stroke
  | axis, distance :: rest => .line (axis.way distance 0) :: alternatingLines axis.other rest
  | _, [] => []

def curves : List Fixed → List Stroke
  | dx1 :: dy1 :: dx2 :: dy2 :: dx3 :: dy3 :: rest =>
      .curve ⟨dx1, dy1⟩ ⟨dx2, dy2⟩ ⟨dx3, dy3⟩ :: curves rest
  | _ => []

def straightCurves (axis : Axis) : (lead : Fixed) → List Fixed → List Stroke
  | lead, distance :: dx :: dy :: last :: rest =>
      .curve (axis.way distance lead) ⟨dx, dy⟩ (axis.way last 0) :: straightCurves axis 0 rest
  | _, _ => []

/-- Four operands for every curve. A fifth one for the last curve is across the axis of its end. -/
def turningCurves : Axis → List Fixed → List Stroke
  | axis, [distance, dx, dy, last, extra] =>
      [.curve (axis.way distance 0) ⟨dx, dy⟩ (axis.other.way last extra)]
  | axis, distance :: dx :: dy :: last :: rest =>
      .curve (axis.way distance 0) ⟨dx, dy⟩ (axis.other.way last 0) ::
        turningCurves axis.other rest
  | _, _ => []

def flexHorizontal : List Fixed → List Stroke
  | [dx1, dx2, dy2, dx3, dx4, dx5, dx6] =>
      [.curve ⟨dx1, 0⟩ ⟨dx2, dy2⟩ ⟨dx3, 0⟩, .curve ⟨dx4, 0⟩ ⟨dx5, -dy2⟩ ⟨dx6, 0⟩]
  | _ => []

def flexHorizontalShort : List Fixed → List Stroke
  | [dx1, dy1, dx2, dy2, dx3, dx4, dx5, dy5, dx6] =>
      [.curve ⟨dx1, dy1⟩ ⟨dx2, dy2⟩ ⟨dx3, 0⟩,
        .curve ⟨dx4, 0⟩ ⟨dx5, dy5⟩ ⟨dx6, -(dy1 + dy2 + dy5)⟩]
  | _ => []

/-- The last operand is along the axis on which the points before have gone further. Along the
other axis, the way ends where it started. -/
def flexShort : List Fixed → List Stroke
  | [dx1, dy1, dx2, dy2, dx3, dy3, dx4, dy4, dx5, dy5, last] =>
      let dx := dx1 + dx2 + dx3 + dx4 + dx5
      let dy := dy1 + dy2 + dy3 + dy4 + dy5
      [.curve ⟨dx1, dy1⟩ ⟨dx2, dy2⟩ ⟨dx3, dy3⟩,
        .curve ⟨dx4, dy4⟩ ⟨dx5, dy5⟩ (if dy.abs < dx.abs then ⟨last, -dy⟩ else ⟨-dx, last⟩)]
  | _ => []

end Stroke

namespace PathOperator

def Admits (size : Nat) : PathOperator → Prop
  | .lines => ∃ count > 0, size = 2 * count
  | .alternatingLines _ => size > 0
  | .curves => ∃ count > 0, size = 6 * count
  | .curvesThenLine => ∃ count > 0, size = 6 * count + 2
  | .linesThenCurve => ∃ count > 0, size = 2 * count + 6
  | .straightCurves _ | .turningCurves _ =>
      ∃ count > 0, size = 4 * count ∨ size = 4 * count + 1
  | .flex => size = 13
  | .flexHorizontal => size = 7
  | .flexHorizontalShort => size = 9
  | .flexShort => size = 11

def strokes (operands : List Fixed) : PathOperator → List Stroke
  | .lines => Stroke.lines operands
  | .alternatingLines axis => Stroke.alternatingLines axis operands
  | .curves => Stroke.curves operands
  | .curvesThenLine =>
      let line := operands.length - 2
      Stroke.curves (operands.take line) ++ Stroke.lines (operands.drop line)
  | .linesThenCurve =>
      let curve := operands.length - 6
      Stroke.lines (operands.take curve) ++ Stroke.curves (operands.drop curve)
  | .straightCurves axis =>
      if operands.length % 2 = 0 then Stroke.straightCurves axis 0 operands
      else Stroke.straightCurves axis (operands.headD 0) operands.tail
  | .turningCurves axis => Stroke.turningCurves axis operands
  | .flex => Stroke.curves (operands.take 12)
  | .flexHorizontal => Stroke.flexHorizontal operands
  | .flexHorizontalShort => Stroke.flexHorizontalShort operands
  | .flexShort => Stroke.flexShort operands

end PathOperator

/-! Drawing strokes. -/

theorem add_way (point : Point Fixed) (dx dy : Fixed) :
    point + ⟨dx, dy⟩ = ⟨point.x + dx, point.y + dy⟩ := rfl

def Pen.follow (pen : Pen) : Stroke → Pen
  | .line way =>
      let last := pen.position + way
      { position := last, commands := pen.commands.push (.lineTo last) }
  | .curve first second last =>
      let first := pen.position + first
      let second := first + second
      let last := second + last
      { position := last, commands := pen.commands.push (.curveTo first second last) }

namespace Drawing

variable {α β : Type} {strokes others : List Stroke}

/-- The drawing does not fail, and is made of these strokes. -/
def Follows (drawing : Drawing α) (strokes : List Stroke) (value : α) : Prop :=
  ∀ pen, drawing.run pen = (.ok value, strokes.foldl Pen.follow pen)

theorem modify_run (change : Pen → Pen) (next : Drawing α) (pen : Pen) :
    (do modify change; next : Drawing α).run pen = next.run (change pen) :=
  rfl

theorem position_run (next : Point Fixed → Drawing α) (pen : Pen) :
    (do next (← position) : Drawing α).run pen = (next pen.position).run pen :=
  rfl

namespace Follows

theorem pure (value : α) : Follows (Pure.pure value) [] value := by
  intro pen
  rfl

theorem bind {first : Drawing α} {next : α → Drawing β} {value : α} {result : β}
    (follows : first.Follows strokes value) (followsNext : (next value).Follows others result) :
    Follows (first >>= next) (strokes ++ others) result := by
  intro pen
  rw [List.foldl_append, ← followsNext]
  exact (Computation.run_bind first next pen).trans (by rw [follows pen])

theorem discard {drawing : Drawing α} {value : α} (follows : drawing.Follows strokes value) :
    Follows (Functor.discard drawing) strokes () := by
  rw [← List.append_nil strokes]
  exact follows.bind (.pure ())

theorem line (way : Point Fixed) {next : Drawing α} {value : α}
    (follows : next.Follows strokes value) :
    Follows (do lineTo ((← position) + way); next) (.line way :: strokes) value := by
  intro pen
  exact follows (pen.follow (.line way))

theorem curve (first second last : Point Fixed) {next : Drawing α} {value : α}
    (follows : next.Follows strokes value) :
    Follows (do
      let start ← position
      curveTo (start + first) (start + first + second) (start + first + second + last)
      next) (.curve first second last :: strokes) value := by
  intro pen
  exact follows (pen.follow (.curve first second last))

theorem singleCurve (first second last : Point Fixed) :
    Follows (do
      let start ← position
      curveTo (start + first) (start + first + second) (start + first + second + last))
      [.curve first second last] () := by
  intro pen
  rfl

end Follows

theorem along_eq (axis : Axis) (distance : Fixed) (point : Point Fixed) :
    along axis distance point = point + axis.way distance 0 := by
  cases axis with
  | horizontal => exact congrArg (Point.mk _) (add_zero point.y).symm
  | vertical => exact congrArg (Point.mk · _) (add_zero point.x).symm

theorem along_along_other (axis : Axis) (distance lead : Fixed) (point : Point Fixed) :
    along axis distance (along axis.other lead point) = point + axis.way distance lead := by
  cases axis with
  | horizontal | vertical => rfl

theorem along_other_along (axis : Axis) (extra last : Fixed) (point : Point Fixed) :
    along axis extra (along axis.other last point) = point + axis.other.way last extra := by
  cases axis with
  | horizontal | vertical => rfl

theorem lines_follows (operands : List Fixed) (even : operands.length % 2 = 0) :
    (lines operands).Follows (Stroke.lines operands) () := by
  induction operands using lines.induct with
  | case1 dx dy rest induction =>
      have even : rest.length % 2 = 0 := by
        rw [List.length_cons, List.length_cons] at even
        omega
      exact .line ⟨dx, dy⟩ (induction even)
  | case2 => exact .pure ()
  | case3 => cases even

theorem alternatingLines_follows (axis : Axis) (operands : List Fixed) :
    (alternatingLines axis operands).Follows (Stroke.alternatingLines axis operands) () := by
  induction axis, operands using alternatingLines.induct with
  | case1 axis distance rest induction =>
      simp only [alternatingLines, along_eq]
      exact .line (axis.way distance 0) induction
  | case2 axis => exact .pure ()

theorem curves_of_short (operands : List Fixed) (short : operands.length < 6) :
    curves operands = pure operands := by
  apply curves.eq_2
  intro dx1 dy1 dx2 dy2 dx3 dy3 rest equal
  rw [equal] at short
  simp only [List.length_cons] at short
  omega

theorem curves_follows (rest : List Fixed) (short : rest.length < 6) :
    ∀ operands : List Fixed, operands.length % 6 = 0 →
      (curves (operands ++ rest)).Follows (Stroke.curves operands) rest
  | [], _ => by
      rw [List.nil_append, curves_of_short rest short]
      exact .pure rest
  | dx1 :: dy1 :: dx2 :: dy2 :: dx3 :: dy3 :: operands, whole => by
      have whole : operands.length % 6 = 0 := by
        simp only [List.length_cons] at whole
        omega
      exact .curve ⟨dx1, dy1⟩ ⟨dx2, dy2⟩ ⟨dx3, dy3⟩ (curves_follows rest short operands whole)

theorem straightCurves_follows (axis : Axis) (operands : List Fixed) :
    (straightCurves axis operands).Follows (Stroke.straightCurves axis 0 operands) () := by
  induction operands using straightCurves.induct with
  | case1 distance dx dy last rest induction =>
      simp only [straightCurves, along_eq]
      exact .curve (axis.way distance 0) ⟨dx, dy⟩ (axis.way last 0) induction
  | case2 operands short =>
      rw [straightCurves.eq_2 axis operands short, Stroke.straightCurves.eq_2 axis 0 operands short]
      exact .pure ()

theorem lead_straightCurves_follows (axis : Axis) (lead : Fixed) :
    ∀ operands : List Fixed, 4 ≤ operands.length →
      Follows (do
        modify fun pen => { pen with position := along axis.other lead pen.position }
        straightCurves axis operands) (Stroke.straightCurves axis lead operands) ()
  | distance :: dx :: dy :: last :: rest, _ => by
      intro pen
      -- Moving across and then starting along the axis is one way, to the first control.
      have moved : Pen.follow { pen with position := along axis.other lead pen.position }
          (.curve (axis.way distance 0) ⟨dx, dy⟩ (axis.way last 0)) =
          pen.follow (.curve (axis.way distance lead) ⟨dx, dy⟩ (axis.way last 0)) := by
        simp only [Pen.follow, ← along_eq axis distance, along_along_other]
      have followed := straightCurves_follows axis (distance :: dx :: dy :: last :: rest)
        { pen with position := along axis.other lead pen.position }
      rw [Stroke.straightCurves.eq_1, List.foldl_cons, moved] at followed
      rw [Stroke.straightCurves.eq_1, List.foldl_cons]
      exact (modify_run _ _ pen).trans followed

theorem turningCurves_follows (axis : Axis) (operands : List Fixed) :
    (turningCurves axis operands).Follows (Stroke.turningCurves axis operands) () := by
  induction axis, operands using turningCurves.induct with
  | case1 axis distance dx dy last extra =>
      rw [turningCurves.eq_1, Stroke.turningCurves.eq_1]
      simp only [along_other_along, along_eq axis distance]
      exact .singleCurve (axis.way distance 0) ⟨dx, dy⟩ (axis.other.way last extra)
  | case2 axis distance dx dy last rest more induction =>
      rw [turningCurves.eq_2 axis distance dx dy last rest more,
        Stroke.turningCurves.eq_2 axis distance dx dy last rest more]
      simp only [along_eq]
      exact .curve (axis.way distance 0) ⟨dx, dy⟩ (axis.other.way last 0) induction
  | case3 operands axis notFive notFour =>
      rw [turningCurves.eq_3 axis operands notFive notFour,
        Stroke.turningCurves.eq_3 axis operands notFive notFour]
      exact .pure ()

theorem twoCurves_run {pen : Pen} {first second joint fourth fifth last : Point Fixed}
    {way1 way2 way3 way4 way5 way6 : Point Fixed} (isFirst : first = pen.position + way1)
    (isSecond : second = first + way2) (isJoint : joint = second + way3)
    (isFourth : fourth = joint + way4) (isFifth : fifth = fourth + way5)
    (isLast : last = fifth + way6) :
    (do curveTo first second joint; curveTo fourth fifth last : Drawing Unit).run pen =
      (.ok (), [Stroke.curve way1 way2 way3, .curve way4 way5 way6].foldl Pen.follow pen) := by
  subst isFirst isSecond isJoint isFourth isFifth isLast
  rfl

theorem flex_follows (operands : List Fixed) (size : operands.length = 13) :
    (flex operands).Follows (Stroke.curves (operands.take 12)) () := by
  match operands, size with
  | [dx1, dy1, dx2, dy2, dx3, dy3, dx4, dy4, dx5, dy5, dx6, dy6, depth], _ =>
      rw [flex.eq_1]
      intro pen
      apply (position_run _ pen).trans
      exact twoCurves_run rfl rfl rfl rfl rfl rfl

theorem flexHorizontal_follows (operands : List Fixed) (size : operands.length = 7) :
    (flexHorizontal operands).Follows (Stroke.flexHorizontal operands) () := by
  match operands, size with
  | [dx1, dx2, dy2, dx3, dx4, dx5, dx6], _ =>
      rw [flexHorizontal.eq_1, Stroke.flexHorizontal.eq_1]
      intro pen
      apply (position_run _ pen).trans
      apply twoCurves_run
      · simp only [add_way, add_zero]
      · rfl
      · simp only [add_way, add_zero]
      · simp only [add_way, add_zero]
      · simp only [add_way, add_neg_cancel_right]
      · simp only [add_way, add_zero]

theorem flexHorizontalShort_follows (operands : List Fixed) (size : operands.length = 9) :
    (flexHorizontalShort operands).Follows (Stroke.flexHorizontalShort operands) () := by
  match operands, size with
  | [dx1, dy1, dx2, dy2, dx3, dx4, dx5, dy5, dx6], _ =>
      rw [flexHorizontalShort.eq_1, Stroke.flexHorizontalShort.eq_1]
      intro pen
      apply (position_run _ pen).trans
      apply twoCurves_run
      · rfl
      · rfl
      · simp only [add_way, add_zero]
      · simp only [add_way, add_zero]
      · rfl
      · simp only [add_way]
        congr 1
        abel

theorem flexShort_last (start : Point Fixed) (dx dy last : Fixed) :
    (if ((start + ⟨dx, dy⟩).y - start.y).abs < ((start + ⟨dx, dy⟩).x - start.x).abs then
      ⟨(start + ⟨dx, dy⟩).x + last, start.y⟩
    else ⟨start.x, (start + ⟨dx, dy⟩).y + last⟩ : Point Fixed) =
      start + ⟨dx, dy⟩ + (if dy.abs < dx.abs then ⟨last, -dy⟩ else ⟨-dx, last⟩) := by
  simp only [add_way, add_sub_cancel_left]
  split
  · rw [add_way, add_neg_cancel_right]
  · rw [add_way, add_neg_cancel_right]

theorem flexShort_follows (operands : List Fixed) (size : operands.length = 11) :
    (flexShort operands).Follows (Stroke.flexShort operands) () := by
  match operands, size with
  | [dx1, dy1, dx2, dy2, dx3, dy3, dx4, dy4, dx5, dy5, last], _ =>
      rw [flexShort.eq_1, Stroke.flexShort.eq_1]
      intro pen
      apply (position_run _ pen).trans
      apply twoCurves_run
      · rfl
      · rfl
      · rfl
      · rfl
      · rfl
      · have fifth : pen.position + ⟨dx1, dy1⟩ + ⟨dx2, dy2⟩ + ⟨dx3, dy3⟩ + ⟨dx4, dy4⟩ + ⟨dx5, dy5⟩ =
            pen.position + ⟨dx1 + dx2 + dx3 + dx4 + dx5, dy1 + dy2 + dy3 + dy4 + dy5⟩ := by
          simp only [add_way, add_assoc]
        rw [fifth]
        exact flexShort_last pen.position _ _ last

theorem require_follows {count : Nat} {operands : List Fixed} (enough : count ≤ operands.length) :
    (require count operands).Follows [] () := by
  rw [require, if_neg (Nat.not_lt.mpr enough)]
  exact .pure ()

theorem curvesThenLine_follows (operands : List Fixed) (enough : 6 ≤ operands.length)
    (whole : operands.length % 6 = 2) :
    (path operands .curvesThenLine).Follows (PathOperator.curvesThenLine.strokes operands) () := by
  simp only [path, PathOperator.strokes]
  have split := List.take_append_drop (operands.length - 2) operands
  have frontLength : (operands.take (operands.length - 2)).length % 6 = 0 := by
    rw [List.length_take]
    omega
  have restLength : (operands.drop (operands.length - 2)).length = 2 := by
    rw [List.length_drop]
    omega
  rcases List.length_eq_two.mp restLength with ⟨dx, dy, rest⟩
  rw [rest] at split ⊢
  have follows := curves_follows [dx, dy] (by simp) _ frontLength
  rw [split] at follows
  exact (require_follows enough).bind (follows.bind fun _ => rfl)

theorem linesThenCurve_follows (operands : List Fixed) (enough : 6 ≤ operands.length)
    (even : operands.length % 2 = 0) :
    (path operands .linesThenCurve).Follows (PathOperator.linesThenCurve.strokes operands) () := by
  simp only [path, PathOperator.strokes]
  -- No operand is left between the lines and the curve.
  have paired : (operands.length - 6) / 2 * 2 = operands.length - 6 := by omega
  rw [paired]
  have lineLength : (operands.take (operands.length - 6)).length % 2 = 0 := by
    rw [List.length_take]
    omega
  have curveLength : (operands.drop (operands.length - 6)).length % 6 = 0 := by
    rw [List.length_drop]
    omega
  have follows := curves_follows [] (by decide) _ curveLength
  rw [List.append_nil] at follows
  exact (require_follows enough).bind ((lines_follows _ lineLength).bind follows.discard)

theorem straightCurves_path_follows (axis : Axis) (operands : List Fixed)
    (enough : 4 ≤ operands.length) (whole : operands.length % 4 ≤ 1) :
    (path operands (.straightCurves axis)).Follows
      ((PathOperator.straightCurves axis).strokes operands) () := by
  simp only [path, PathOperator.strokes]
  cases operands with
  | nil => cases enough
  | cons first rest =>
      rw [List.length_cons] at enough whole ⊢
      by_cases even : (rest.length + 1) % 2 = 0
      · have odd : ¬rest.length % 2 = 0 := by omega
        simp only [oddOffset?, if_neg odd, if_pos even]
        exact (require_follows enough).bind (straightCurves_follows axis _)
      · have others : rest.length % 2 = 0 := by omega
        simp only [oddOffset?, if_pos others, if_neg even, List.headD_cons, List.tail_cons]
        exact (require_follows (by omega)).bind
          (lead_straightCurves_follows axis first rest (by omega))

/-- A path operator with as many operands as it may have does not fail, and draws its strokes. -/
theorem path_follows (operator : PathOperator) (operands : List Fixed)
    (admits : operator.Admits operands.length) :
    (path operands operator).Follows (operator.strokes operands) () := by
  cases operator with
  | lines =>
      rcases admits with ⟨count, positive, size⟩
      exact (require_follows (by omega)).bind (lines_follows operands (by omega))
  | alternatingLines axis =>
      exact (require_follows admits).bind (alternatingLines_follows axis operands)
  | curves =>
      rcases admits with ⟨count, positive, size⟩
      have follows := curves_follows [] (by decide) operands (by omega)
      rw [List.append_nil] at follows
      exact (require_follows (by omega)).bind follows.discard
  | curvesThenLine =>
      rcases admits with ⟨count, positive, size⟩
      exact curvesThenLine_follows operands (by omega) (by omega)
  | linesThenCurve =>
      rcases admits with ⟨count, positive, size⟩
      exact linesThenCurve_follows operands (by omega) (by omega)
  | straightCurves axis =>
      rcases admits with ⟨count, positive, size⟩
      exact straightCurves_path_follows axis operands (by omega) (by omega)
  | turningCurves axis =>
      rcases admits with ⟨count, positive, size⟩
      exact (require_follows (by omega)).bind (turningCurves_follows axis operands)
  | flex => exact flex_follows operands admits
  | flexHorizontal => exact flexHorizontal_follows operands admits
  | flexHorizontalShort => exact flexHorizontalShort_follows operands admits
  | flexShort => exact flexShort_follows operands admits

end Drawing

/-! Performing strokes. -/

namespace Stack

def pushAll (stack : Stack) (values : List Fixed) : Stack :=
  values.foldl (fun stack value => stack.push (.fixed value)) stack

theorem toFixedList_pushAll {stack : Stack} (values : List Fixed)
    (room : stack.size + values.length ≤ stackLimit) :
    (stack.pushAll values).toFixedList = stack.toFixedList ++ values := by
  induction values generalizing stack with
  | nil => exact (List.append_nil _).symm
  | cons value values induction =>
      rw [List.length_cons] at room
      have pushed := @toFixedList_push stack (by omega) (.fixed value)
      have grown : (stack.push (.fixed value)).size = stack.size + 1 := by
        rw [← length_toFixedList, pushed, List.length_append, length_toFixedList]
        rfl
      rw [pushAll, List.foldl_cons, ← pushAll, induction (by omega), pushed, List.append_assoc]
      rfl

end Stack

namespace Stroke

def prepare (stroke : Stroke) (machine : Machine) : Machine :=
  { machine with stack := machine.stack.pushAll stroke.operands }

def perform (stroke : Stroke) : Action Unit := do
  modify stroke.prepare
  Action.path stroke.operator

def performAll : List Stroke → Action Unit
  | [] => pure ()
  | stroke :: strokes => do
      stroke.perform
      performAll strokes

theorem operator_admits (stroke : Stroke) : stroke.operator.Admits stroke.operands.length := by
  cases stroke with
  | line way => exact ⟨1, by decide, rfl⟩
  | curve first second last => exact ⟨1, by decide, rfl⟩

theorem strokes_operator (stroke : Stroke) : stroke.operator.strokes stroke.operands = [stroke] := by
  cases stroke with
  | line way | curve first second last => rfl

theorem toFixedList_prepare (stroke : Stroke) {machine : Machine}
    (empty : machine.stack = .empty) :
    (stroke.prepare machine).stack.toFixedList = stroke.operands := by
  have room : Stack.empty.size + stroke.operands.length ≤ stackLimit := by
    cases stroke with
    | line way | curve first second last => exact Nat.le_of_ble_eq_true rfl
  rw [prepare, empty, Stack.toFixedList_pushAll _ room]
  rfl

end Stroke

namespace Action

theorem path_run (operator : PathOperator) (machine : Machine)
    (admits : operator.Admits machine.stack.toFixedList.length) :
    (path operator).run machine =
      (.ok (), { machine with
        stack := .empty
        pen := (operator.strokes machine.stack.toFixedList).foldl Pen.follow machine.pen }) := by
  rw [path_run_drawing, Drawing.path_follows operator _ admits]

end Action

namespace Stroke

theorem perform_run (stroke : Stroke) {machine : Machine} (empty : machine.stack = .empty) :
    stroke.perform.run machine = (.ok (), { machine with pen := machine.pen.follow stroke }) := by
  have performed := Action.path_run stroke.operator (stroke.prepare machine)
  rw [stroke.toFixedList_prepare empty, strokes_operator] at performed
  show (Action.path stroke.operator).run (stroke.prepare machine) = _
  rw [performed stroke.operator_admits, ← empty]
  rfl

theorem performAll_run (strokes : List Stroke) {machine : Machine}
    (empty : machine.stack = .empty) :
    (performAll strokes).run machine =
      (.ok (), { machine with pen := strokes.foldl Pen.follow machine.pen }) := by
  induction strokes generalizing machine with
  | nil => rfl
  | cons stroke strokes induction =>
      rw [performAll, Computation.run_bind, perform_run stroke empty]
      exact induction empty

end Stroke

/-- A path operator with a legal number of operands does what its strokes do one by one on a stack
that has been emptied. It does not fail, and changes nothing but the pen and the stack, which is
empty afterwards. -/
theorem path_performs_strokes (operator : PathOperator) (machine : Machine)
    (admits : operator.Admits machine.stack.size) :
    ∃ pen, (Action.path operator).run machine = (.ok (), { machine with stack := .empty, pen }) ∧
      (Stroke.performAll (operator.strokes machine.stack.toFixedList)).run
        { machine with stack := .empty } = (.ok (), { machine with stack := .empty, pen }) := by
  rw [← Stack.length_toFixedList] at admits
  exact ⟨_, Action.path_run operator machine admits, Stroke.performAll_run _ rfl⟩

/-- The fifth operand of a single curve from horizontal to vertical is horizontal. -/
theorem path_performs_strokes_turning :
    ∃ pen, (Action.path (.turningCurves .horizontal)).run
        { stack := { entries := #[.integer 3, .integer 1, .fixed ⟨32768⟩, .integer 2, .fixed ⟨7⟩] } } =
          (.ok (), { pen }) ∧
      (Stroke.performAll [.curve ⟨⟨196608⟩, 0⟩ ⟨⟨65536⟩, ⟨32768⟩⟩ ⟨⟨7⟩, ⟨131072⟩⟩]).run {} =
        (.ok (), { pen }) :=
  path_performs_strokes (.turningCurves .horizontal)
    { stack := { entries := #[.integer 3, .integer 1, .fixed ⟨32768⟩, .integer 2, .fixed ⟨7⟩] } }
    ⟨1, by decide, .inr rfl⟩

end Letterform.Charstring
