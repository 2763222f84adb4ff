import Letterform.Charstring.Operator
import Letterform.Geometry.Point

/-!
What charstrings draw: absolute moves, lines, curves and closes, and hints. The
path operators read their operands from the bottom of the stack up and move the
pen as they go; all sums wrap around at 32 bits.
-/

namespace Letterform.Charstring

open Cff (Fault)

inductive Command
  | moveTo (point : Point Fixed)
  | lineTo (point : Point Fixed)
  | curveTo (first second last : Point Fixed)
  | close
  | stem (axis : Axis) (start stop : Fixed)
  | mask (kind : MaskKind) (bytes : Bytes)
  deriving DecidableEq, Repr

structure Pen where
  position : Point Fixed := ⟨.zero, .zero⟩
  commands : Array Command := #[]
  deriving DecidableEq, Repr

abbrev Drawing := ExceptT Fault (StateM Pen)

namespace Drawing

def along (axis : Axis) (distance : Fixed) (point : Point Fixed) : Point Fixed :=
  match axis with
  | .horizontal => ⟨point.x + distance, point.y⟩
  | .vertical => ⟨point.x, point.y + distance⟩

def emit (command : Command) : Drawing Unit :=
  modify fun pen => { pen with commands := pen.commands.push command }

def moveTo (point : Point Fixed) : Drawing Unit :=
  modify fun pen => { position := point, commands := pen.commands.push (.moveTo point) }

def lineTo (point : Point Fixed) : Drawing Unit :=
  modify fun pen => { position := point, commands := pen.commands.push (.lineTo point) }

def curveTo (first second last : Point Fixed) : Drawing Unit :=
  modify fun pen =>
    { position := last, commands := pen.commands.push (.curveTo first second last) }

def position : Drawing (Point Fixed) := do return (← get).position

def lines : List Fixed → Drawing Unit
  | dx :: dy :: rest => do
      lineTo ((← position) + ⟨dx, dy⟩)
      lines rest
  | [] => pure ()
  | [_] => throw .stackUnderflow

def alternatingLines : Axis → List Fixed → Drawing Unit
  | axis, distance :: rest => do
      lineTo (along axis distance (← position))
      alternatingLines axis.other rest
  | _, [] => pure ()

/-- Six coordinates for every curve; what is left over is handed back. -/
def curves : List Fixed → Drawing (List Fixed)
  | dx1 :: dy1 :: dx2 :: dy2 :: dx3 :: dy3 :: rest => do
      let first := (← position) + ⟨dx1, dy1⟩
      let second := first + ⟨dx2, dy2⟩
      curveTo first second (second + ⟨dx3, dy3⟩)
      curves rest
  | rest => pure rest

def straightCurves (axis : Axis) : List Fixed → Drawing Unit
  | distance :: dx :: dy :: last :: rest => do
      let first := along axis distance (← position)
      let second := first + ⟨dx, dy⟩
      curveTo first second (along axis last second)
      straightCurves axis rest
  | _ => pure ()

/-- Four coordinates for every curve, and possibly a fifth for the last one, which then
does not end along an axis. -/
def turningCurves : Axis → List Fixed → Drawing Unit
  | axis, [distance, dx, dy, last, extra] => do
      let first := along axis distance (← position)
      let second := first + ⟨dx, dy⟩
      curveTo first second (along axis extra (along axis.other last second))
  | axis, distance :: dx :: dy :: last :: rest => do
      let first := along axis distance (← position)
      let second := first + ⟨dx, dy⟩
      curveTo first second (along axis.other last second)
      turningCurves axis.other rest
  | _, _ => pure ()

def flex : List Fixed → Drawing Unit
  | dx1 :: dy1 :: dx2 :: dy2 :: dx3 :: dy3 :: dx4 :: dy4 :: dx5 :: dy5 :: dx6 :: dy6 :: _ => do
      let first := (← position) + ⟨dx1, dy1⟩
      let second := first + ⟨dx2, dy2⟩
      let joint := second + ⟨dx3, dy3⟩
      let fourth := joint + ⟨dx4, dy4⟩
      let fifth := fourth + ⟨dx5, dy5⟩
      curveTo first second joint
      curveTo fourth fifth (fifth + ⟨dx6, dy6⟩)
  | _ => throw .stackUnderflow

def flexHorizontal : List Fixed → Drawing Unit
  | dx1 :: dx2 :: dy2 :: dx3 :: dx4 :: dx5 :: dx6 :: _ => do
      let start ← position
      let first : Point Fixed := ⟨start.x + dx1, start.y⟩
      let second := first + ⟨dx2, dy2⟩
      let joint : Point Fixed := ⟨second.x + dx3, second.y⟩
      let fourth : Point Fixed := ⟨joint.x + dx4, second.y⟩
      let fifth : Point Fixed := ⟨fourth.x + dx5, start.y⟩
      curveTo first second joint
      curveTo fourth fifth ⟨fifth.x + dx6, start.y⟩
  | _ => throw .stackUnderflow

def flexHorizontalShort : List Fixed → Drawing Unit
  | dx1 :: dy1 :: dx2 :: dy2 :: dx3 :: dx4 :: dx5 :: dy5 :: dx6 :: _ => do
      let start ← position
      let first := start + ⟨dx1, dy1⟩
      let second := first + ⟨dx2, dy2⟩
      let joint : Point Fixed := ⟨second.x + dx3, second.y⟩
      let fourth : Point Fixed := ⟨joint.x + dx4, second.y⟩
      let fifth : Point Fixed := ⟨fourth.x + dx5, second.y + dy5⟩
      curveTo first second joint
      curveTo fourth fifth ⟨fifth.x + dx6, start.y⟩
  | _ => throw .stackUnderflow

/-- Two curves whose last coordinate is along the axis of the larger displacement. They
end where they started along the other axis. -/
def flexShort : List Fixed → Drawing Unit
  | dx1 :: dy1 :: dx2 :: dy2 :: dx3 :: dy3 :: dx4 :: dy4 :: dx5 :: dy5 :: last :: _ => do
      let start ← position
      let first := start + ⟨dx1, dy1⟩
      let second := first + ⟨dx2, dy2⟩
      let joint := second + ⟨dx3, dy3⟩
      let fourth := joint + ⟨dx4, dy4⟩
      let fifth := fourth + ⟨dx5, dy5⟩
      curveTo first second joint
      curveTo fourth fifth
        (if (fifth.y - start.y).abs < (fifth.x - start.x).abs then ⟨fifth.x + last, start.y⟩
        else ⟨start.x, fifth.y + last⟩)
  | _ => throw .stackUnderflow

def require (count : Nat) (operands : List Fixed) : Drawing Unit :=
  if operands.length < count then throw .stackUnderflow else pure ()

def oddOffset? : List Fixed → Option (Fixed × List Fixed)
  | offset :: rest => if rest.length % 2 = 0 then some (offset, rest) else none
  | [] => none

def path (operands : List Fixed) : PathOperator → Drawing Unit
  | .lines => do
      require 2 operands
      lines operands
  | .alternatingLines axis => do
      require 1 operands
      alternatingLines axis operands
  | .curves => do
      require 6 operands
      discard (curves operands)
  | .curvesThenLine => do
      require 6 operands
      match ← curves operands with
      | dx :: dy :: _ => lineTo ((← position) + ⟨dx, dy⟩)
      | _ => throw .stackUnderflow
  | .linesThenCurve => do
      require 6 operands
      let others := operands.length - 6
      lines (operands.take (others / 2 * 2))
      discard (curves (operands.drop others))
  | .straightCurves axis =>
      match oddOffset? operands with
      | some (offset, rest) => do
          require 4 rest
          modify fun pen => { pen with position := along axis.other offset pen.position }
          straightCurves axis rest
      | none => do
          require 4 operands
          straightCurves axis operands
  | .turningCurves axis => do
      require 4 operands
      turningCurves axis operands
  | .flex => flex operands
  | .flexHorizontal => flexHorizontal operands
  | .flexHorizontalShort => flexHorizontalShort operands
  | .flexShort => flexShort operands

end Drawing

end Letterform.Charstring
