import Letterform.Bytes.Decoder
import Letterform.FlagSet

/-!
Points of TrueType contours and their packed form. The flags of all points come
first, a run of equal flags as one with a count; then the x coordinates and then
the y coordinates. A coordinate is stored as its difference to the one before: two
bytes, or one byte whose sign is a flag, or nothing if there is no difference.
-/

namespace Letterform.TrueType

structure CurvePoint where
  x : Int32
  y : Int32
  isOnCurve : Bool
  deriving DecidableEq, Repr

abbrev PointFlags := FlagSet 8 0x7F

namespace PointFlags

def onCurve : PointFlags := .ofBits 0x01
def shortX : PointFlags := .ofBits 0x02
def shortY : PointFlags := .ofBits 0x04
def repeated : PointFlags := .ofBits 0x08
def positiveOrSameX : PointFlags := .ofBits 0x10
def positiveOrSameY : PointFlags := .ofBits 0x20

end PointFlags

instance : Packed PointFlags :=
  Packed.through (fun flags => UInt8.ofBitVec flags.bits) (fun byte => .ofBits byte.toBitVec)
    FlagSet.ofBits_bits

/-! Reading. -/

def flagsDecoder (count : Nat) : Decoder ReadError (List PointFlags) :=
  if _ended : count = 0 then pure [] else do
    let flags : PointFlags ← Decoder.read PointFlags
    if flags.contains PointFlags.repeated then
      let more : UInt8 ← Decoder.read UInt8
      if count < more.toNat + 1 then Decoder.fail (.malformed .repeatCount)
      else return List.replicate (more.toNat + 1) flags ++
        (← flagsDecoder (count - (more.toNat + 1)))
    else return flags :: (← flagsDecoder (count - 1))
termination_by count

structure DeltaForm where
  short : PointFlags
  positiveOrSame : PointFlags

namespace DeltaForm

def x : DeltaForm := ⟨PointFlags.shortX, PointFlags.positiveOrSameX⟩
def y : DeltaForm := ⟨PointFlags.shortY, PointFlags.positiveOrSameY⟩

def decoder (form : DeltaForm) (flags : PointFlags) : Decoder ReadError Int32 :=
  if flags.contains form.short then do
    let magnitude : UInt8 ← Decoder.read UInt8
    let distance := Int32.ofNat magnitude.toNat
    return if flags.contains form.positiveOrSame then distance else -distance
  else if flags.contains form.positiveOrSame then pure 0
  else do
    let difference : Int16 ← Decoder.read Int16
    return difference.toInt32

end DeltaForm

/-- Coordinates from their differences; sums wrap around at 32 bits. -/
def runningSums : (sum : Int32) → List Int32 → List Int32
  | _, [] => []
  | sum, difference :: differences =>
      (sum + difference) :: runningSums (sum + difference) differences

def assemble (flags : List PointFlags) (xs ys : List Int32) : List CurvePoint :=
  (flags.zip (xs.zip ys)).map fun (flags, x, y) => ⟨x, y, flags.contains PointFlags.onCurve⟩

def pointsDecoder (count : Nat) : Decoder ReadError (List CurvePoint) := do
  let flags ← flagsDecoder count
  let xDifferences ← flags.mapM DeltaForm.x.decoder
  let yDifferences ← flags.mapM DeltaForm.y.decoder
  return assemble flags (runningSums 0 xDifferences) (runningSums 0 yDifferences)

/-! Writing. Points to be stored have coordinates of 16 bits. -/

structure StoredPoint where
  x : Int16
  y : Int16
  isOnCurve : Bool
  deriving DecidableEq, Repr

def StoredPoint.toCurvePoint (point : StoredPoint) : CurvePoint :=
  ⟨point.x.toInt32, point.y.toInt32, point.isOnCurve⟩

def differences : (last : Int16) → List Int16 → List Int16
  | _, [] => []
  | last, value :: values => (value - last) :: differences value values

namespace DeltaForm

def flagsFor (form : DeltaForm) (difference : Int16) : PointFlags :=
  if difference = 0 then form.positiveOrSame
  else if difference.toInt.natAbs ≤ 255 then
    if 0 < difference then form.short ∪ form.positiveOrSame else form.short
  else .empty

def encode (difference : Int16) : Bytes :=
  if difference = 0 then []
  else if difference.toInt.natAbs ≤ 255 then [UInt8.ofNat difference.toInt.natAbs]
  else Packed.encode difference

end DeltaForm

def runs {α : Type} [DecidableEq α] : List α → List (α × Nat)
  | [] => []
  | value :: values => match runs values with
    | (first, count) :: others =>
        if first = value then (value, count + 1) :: others
        else (value, 1) :: (first, count) :: others
    | [] => [(value, 1)]

/-- One byte for a single point, two for a longer run. The count keeps its low eight bits. -/
def encodeFlagRun (run : PointFlags × Nat) : Bytes :=
  if 1 < run.2 then Packed.encode (run.1 ∪ PointFlags.repeated) ++ [UInt8.ofNat (run.2 - 1)]
  else Packed.encode run.1

def encodePoints (points : List StoredPoint) : Bytes :=
  let xDifferences := differences 0 (points.map StoredPoint.x)
  let yDifferences := differences 0 (points.map StoredPoint.y)
  let flags := (points.zip (xDifferences.zip yDifferences)).map fun (point, x, y) =>
    (if point.isOnCurve then PointFlags.onCurve else .empty) ∪
      DeltaForm.x.flagsFor x ∪ DeltaForm.y.flagsFor y
  (runs flags).flatMap encodeFlagRun ++ xDifferences.flatMap DeltaForm.encode ++
    yDifferences.flatMap DeltaForm.encode

end Letterform.TrueType
