import Letterform.Proofs.Number.Fixed
import Letterform.Proofs.Outline.Curves
import Letterform.Proofs.Outline.Sides
import Mathlib.Data.Rat.Floor
import Mathlib.Tactic.Linarith

/-!
Boxes in exact arithmetic. The samples of a curve are blends of its control points, so no side of a
box is beyond the control points, and none falls short of a place where the pen has been.
-/

namespace Letterform

open Coordinate (least greatest)

namespace Coordinate

theorem least_rat (first second : Rat) : least first second = min second first :=
  (min_def_lt second first).symm

theorem greatest_rat (first second : Rat) : greatest first second = max first second :=
  (max_def_lt first second).symm

theorem chooses_least : Chooses (@least Rat _) (· ≤ ·) where
  choice first second := least_rat first second ▸ (min_choice second first).symm
  left first second := least_rat first second ▸ min_le_right second first
  right first second := least_rat first second ▸ min_le_left second first
  trans := le_trans

theorem chooses_greatest : Chooses (@greatest Rat _) (· ≥ ·) where
  choice first second := greatest_rat first second ▸ max_choice first second
  left first second := greatest_rat first second ▸ le_max_left first second
  right first second := greatest_rat first second ▸ le_max_right first second
  trans := ge_trans

end Coordinate

open Coordinate (chooses_least chooses_greatest)

namespace Side

variable {side : Side} {limit : Rat}

theorem chooses : Chooses side.choose fun outer inner : Rat => side.Reaches outer inner := by
  cases side with
  | left | bottom => exact chooses_least
  | right | top => exact chooses_greatest

/-! Rounding. -/

def round (value : Rat) : Side → Int
  | .left | .bottom => value.floor
  | .right | .top => value.ceil

theorem round32_eq (side : Side) (value : Rat) :
    side.round32 value = saturate32 (side.round value) := by
  cases side <;> rfl

theorem reaches_round (value : Rat) : side.Reaches (side.round value : Rat) value := by
  cases side with
  | left | bottom => exact Rat.floor_le value
  | right | top => exact Rat.le_ceil

theorem round_reaches {first second : Rat} (reaches : side.Reaches first second) :
    side.Reaches (side.round first) (side.round second) := by
  cases side with
  | left | bottom => exact Rat.floor_monotone reaches
  | right | top => exact Rat.ceil_le_iff.mpr (le_trans reaches Rat.le_ceil)

theorem saturate32_reaches {first second : Int} (reaches : side.Reaches first second) :
    side.Reaches (saturate32 first).toInt (saturate32 second).toInt := by
  cases side <;> simp only [Reaches, toInt_saturate32] at reaches ⊢ <;> omega

theorem floor_le_ceil (value : Rat) : value.floor ≤ value.ceil :=
  Int.cast_le.mp ((Rat.floor_le value).trans (Rat.le_ceil (x := value)))

theorem toInt_round32 {value : Rat} (above : -2 ^ 31 ≤ value) (below : value ≤ 2 ^ 31 - 1) :
    (side.round32 value).toInt = side.round value := by
  have floorAbove : -2 ^ 31 ≤ value.floor := Rat.le_floor_iff.mpr (by exact_mod_cast above)
  have ceilBelow : value.ceil ≤ 2 ^ 31 - 1 := Rat.ceil_le_iff.mpr (by exact_mod_cast below)
  have between := floor_le_ceil value
  rw [round32_eq, toInt_saturate32]
  cases side <;> simp only [round] <;> omega

/-! Blends. -/

theorem reaches_blend {t : Rat} (nonnegative : 0 ≤ t) (within : t ≤ 1) {first second : Point Rat}
    (reachesFirst : side.Reaches limit (side.ofPoint first))
    (reachesSecond : side.Reaches limit (side.ofPoint second)) :
    side.Reaches limit (side.ofPoint (.blend t first second)) := by
  have rest : 0 ≤ 1 - t := sub_nonneg.mpr within
  have whole : (1 - t) * limit + t * limit = limit := by ring
  cases side with
  | left | bottom =>
      exact whole ▸ add_le_add (mul_le_mul_of_nonneg_left reachesFirst rest)
        (mul_le_mul_of_nonneg_left reachesSecond nonnegative)
  | right | top =>
      exact whole ▸ add_le_add (mul_le_mul_of_nonneg_left reachesFirst rest)
        (mul_le_mul_of_nonneg_left reachesSecond nonnegative)

/-- What reaches the control points and the ends reaches every point of a curve. -/
theorem reaches_pointAt {t : Rat} (nonnegative : 0 ≤ t) (within : t ≤ 1) {start : Point Rat}
    {element : PathElement Rat}
    (reachesStart : side.Reaches limit (side.ofPoint start))
    (reaches : ∀ point ∈ element.points, side.Reaches limit (side.ofPoint point)) :
    side.Reaches limit (side.ofPoint (element.pointAt start t)) := by
  have blend {first second : Point Rat} :
      side.Reaches limit (side.ofPoint first) → side.Reaches limit (side.ofPoint second) →
        side.Reaches limit (side.ofPoint (.blend t first second)) :=
    reaches_blend nonnegative within
  cases element with
  | move point | line point =>
      exact blend reachesStart (reaches point (by simp [PathElement.points]))
  | quadratic control last =>
      have reachesControl := reaches control (by simp [PathElement.points])
      have reachesLast := reaches last (by simp [PathElement.points])
      exact blend (blend reachesStart reachesControl) (blend reachesControl reachesLast)
  | cubic first second last =>
      have reachesFirst := reaches first (by simp [PathElement.points])
      have reachesSecond := reaches second (by simp [PathElement.points])
      have reachesLast := reaches last (by simp [PathElement.points])
      have middle := blend reachesFirst reachesSecond
      exact blend (blend (blend reachesStart reachesFirst) middle)
        (blend middle (blend reachesSecond reachesLast))
  | close => exact reachesStart

end Side

/-! Frames. -/

structure Point.FitsIn32 (point : Point Rat) : Prop where
  xAbove : -2 ^ 31 ≤ point.x
  xBelow : point.x ≤ 2 ^ 31 - 1
  yAbove : -2 ^ 31 ≤ point.y
  yBelow : point.y ≤ 2 ^ 31 - 1

theorem Point.FitsIn32.toInt_round32 {point : Point Rat} (fits : point.FitsIn32) (side : Side) :
    (side.round32 (side.ofPoint point)).toInt = side.round (side.ofPoint point) := by
  cases side with
  | left | right => exact Side.toInt_round32 fits.xAbove fits.xBelow
  | bottom | top => exact Side.toInt_round32 fits.yAbove fits.yBelow

namespace Step

/-- The absolute control points and the end, and for a curve the start as well. -/
def frame {α : Type} [Add α] (start : Point α) (step : Step α) : List (Point α) :=
  (if step.isCurve then [start] else []) ++ (step.element start).points

theorem mem_sampleParameters {t : Rat} :
    t ∈ sampleParameters ↔ ∃ part : Nat, 1 ≤ part ∧ part ≤ 40 ∧ t = part / 40 := by
  simp only [sampleParameters, sampleCount, List.mem_map, List.mem_range, Coordinate.ofInt_rat]
  constructor
  · rintro ⟨index, below, rfl⟩
    exact ⟨index + 1, by omega, by omega, by push_cast; rfl⟩
  · rintro ⟨part, above, below, rfl⟩
    exact ⟨part - 1, by omega, by push_cast [Nat.cast_sub above]; ring⟩

theorem mem_samples {start point : Point Rat} {step : Step Rat} :
    point ∈ step.samples start ↔
      (step.isCurve ∧ ∃ part : Nat, 1 ≤ part ∧ part ≤ 40 ∧
        point = (step.element start).pointAt start (part / 40)) ∨
      point = start + step.endOffset := by
  rw [samples, List.mem_append, List.mem_singleton]
  refine or_congr_left ?_
  cases step.isCurve with
  | false => simp
  | true =>
      simp only [if_true, true_and, List.mem_map, mem_sampleParameters, pointAt_eq]
      constructor
      · rintro ⟨t, ⟨part, above, below, rfl⟩, rfl⟩
        exact ⟨part, above, below, rfl⟩
      · rintro ⟨part, above, below, rfl⟩
        exact ⟨part / 40, ⟨part, above, below, rfl⟩, rfl⟩

theorem end_mem_frame (start : Point Rat) (step : Step Rat) :
    start + step.endOffset ∈ step.frame start :=
  List.mem_append_right _ (List.mem_of_getLast? (getLast?_points_element start step))

theorem reaches_samples (side : Side) {limit : Rat} {start : Point Rat} {step : Step Rat}
    (reaches : ∀ point ∈ step.frame start, side.Reaches limit (side.ofPoint point)) :
    ∀ point ∈ step.samples start, side.Reaches limit (side.ofPoint point) := by
  intro point member
  rcases mem_samples.mp member with ⟨isCurve, part, above, below, rfl⟩ | rfl
  · have reachesStart := reaches start (by simp [frame, isCurve])
    refine Side.reaches_pointAt (by positivity) ?_ reachesStart
      fun point member => reaches point (List.mem_append_right _ member)
    exact (div_le_one (by norm_num)).mpr (by exact_mod_cast below)
  · exact reaches _ (step.end_mem_frame start)

end Step

namespace Outline

def frame {α : Type} [Add α] : (start : Point α) → Outline α → List (Point α)
  | _, [] => []
  | start, step :: steps => step.frame start ++ frame (start + step.endOffset) steps

/-- A point that counts for a box: the end of a step, or one of forty points of a curve. -/
inductive Visits : Point Rat → Outline Rat → Point Rat → Prop
  | stop (start : Point Rat) (step : Step Rat) (steps : Outline Rat) :
      Visits start (step :: steps) (start + step.endOffset)
  | curve {start : Point Rat} {step : Step Rat} {steps : Outline Rat} {part : Nat}
      (isCurve : step.isCurve) (above : 1 ≤ part) (below : part ≤ 40) :
      Visits start (step :: steps) ((step.element start).pointAt start (part / 40))
  | later {start : Point Rat} {step : Step Rat} {steps : Outline Rat} {point : Point Rat}
      (visits : Visits (start + step.endOffset) steps point) : Visits start (step :: steps) point

variable {start : Point Rat} {outline : Outline Rat}

theorem visits_of_mem_samples {point : Point Rat} (member : point ∈ outline.samples start) :
    Visits start outline point := by
  induction outline generalizing start with
  | nil => exact absurd member List.not_mem_nil
  | cons step steps induction =>
      rcases List.mem_append.mp member with member | member
      · rcases Step.mem_samples.mp member with ⟨isCurve, part, above, below, rfl⟩ | rfl
        · exact .curve isCurve above below
        · exact .stop start step steps
      · exact .later (induction member)

theorem mem_samples_of_mem_positions {point : Point Rat}
    (member : point ∈ outline.positions start) : point ∈ outline.samples start := by
  induction outline generalizing start with
  | nil => exact absurd member List.not_mem_nil
  | cons step steps induction =>
      rcases List.mem_cons.mp member with rfl | member
      · exact List.mem_append_left _ (Step.mem_samples.mpr (.inr rfl))
      · exact List.mem_append_right _ (induction member)

theorem reaches_samples (side : Side) {limit : Rat}
    (reaches : ∀ point ∈ outline.frame start, side.Reaches limit (side.ofPoint point)) :
    ∀ point ∈ outline.samples start, side.Reaches limit (side.ofPoint point) := by
  induction outline generalizing start with
  | nil => exact fun _ member => absurd member List.not_mem_nil
  | cons step steps induction =>
      rcases List.forall_mem_append.mp reaches with ⟨reachesStep, reachesSteps⟩
      exact List.forall_mem_append.mpr ⟨Step.reaches_samples side reachesStep,
        induction reachesSteps⟩

theorem mem_samples_append {before : Outline Rat} (after : Outline Rat) {point : Point Rat}
    (member : point ∈ before.samples start) : point ∈ samples start (before ++ after) := by
  induction before generalizing start with
  | nil => exact absurd member List.not_mem_nil
  | cons step steps induction =>
      rcases List.mem_append.mp member with member | member
      · exact List.mem_append_left _ member
      · exact List.mem_append_right _ (induction member)

theorem samples_fit (fits : ∀ point ∈ outline.frame start, point.FitsIn32) :
    ∀ point ∈ outline.samples start, point.FitsIn32 := by
  intro point member
  constructor
  · exact reaches_samples .left (fun point framed => (fits point framed).xAbove) point member
  · exact reaches_samples .right (fun point framed => (fits point framed).xBelow) point member
  · exact reaches_samples .bottom (fun point framed => (fits point framed).yAbove) point member
  · exact reaches_samples .top (fun point framed => (fits point framed).yBelow) point member

theorem frame_ne_nil (start : Point Rat) (drawn : outline ≠ []) : outline.frame start ≠ [] := by
  cases outline with
  | nil => exact absurd rfl drawn
  | cons step steps =>
      exact List.ne_nil_of_mem (List.mem_append_left _ (step.end_mem_frame start))

theorem exists_furthest_frame (side : Side) (start : Point Rat) (drawn : outline ≠ []) :
    ∃ furthest ∈ outline.frame start, ∀ point ∈ outline.frame start,
      side.Reaches (side.ofPoint furthest) (side.ofPoint point) := by
  have some : (outline.frame start).map (fun point => side.ofPoint point) ≠ [] :=
    fun none => frame_ne_nil start drawn (List.map_eq_nil_iff.mp none)
  rcases side.chooses.exists_first some with ⟨_, member, furthest⟩
  rcases List.mem_map.mp member with ⟨point, framed, rfl⟩
  exact ⟨point, framed, fun other present => furthest _ (List.mem_map_of_mem present)⟩

/-- A box holds every place where the pen stops, has each side where some visited point is, and is
not beyond the frame. It holds the boxes of all beginnings of the outline. -/
theorem bounds_fit {outline : Outline Rat} (drawn : outline ≠ []) :
    ((∀ point ∈ outline.frame .origin, point.FitsIn32) →
      (∀ side : Side, ∀ point ∈ outline.positions .origin,
        side.Reaches ((side.ofBox outline.bounds).toInt : Rat) (side.ofPoint point)) ∧
      (∀ side : Side, ∃ furthest ∈ outline.frame .origin,
        (∀ point ∈ outline.frame .origin,
          side.Reaches (side.ofPoint furthest) (side.ofPoint point)) ∧
        side.Reaches (side.round (side.ofPoint furthest)) (side.ofBox outline.bounds).toInt) ∧
      ∀ side : Side, ∃ point, Visits .origin outline point ∧
        (side.ofBox outline.bounds).toInt = side.round (side.ofPoint point)) ∧
    ∀ before after : Outline Rat, outline = before ++ after → before ≠ [] → ∀ side : Side,
      side.Reaches (side.ofBox outline.bounds).toInt (side.ofBox before.bounds).toInt := by
  constructor
  · intro fits
    have edge (side : Side) : ∃ point ∈ outline.samples .origin,
        (side.ofBox outline.bounds).toInt = side.round (side.ofPoint point) ∧
          ∀ other ∈ outline.samples .origin,
            side.Reaches (side.ofPoint point) (side.ofPoint other) := by
      rcases exists_furthest side.chooses drawn with ⟨point, sampled, equal, furthest⟩
      refine ⟨point, sampled, ?_, furthest⟩
      rw [equal]
      exact (samples_fit fits point sampled).toInt_round32 side
    refine ⟨?_, ?_, ?_⟩
    · intro side point stopped
      rcases edge side with ⟨outer, -, equal, furthest⟩
      rw [equal]
      exact side.chooses.trans (side.reaches_round _)
        (furthest point (mem_samples_of_mem_positions stopped))
    · intro side
      rcases edge side with ⟨sample, sampled, equal, -⟩
      rcases exists_furthest_frame side .origin drawn with ⟨outer, framed, furthest⟩
      refine ⟨outer, framed, furthest, ?_⟩
      rw [equal]
      exact Side.round_reaches (reaches_samples side furthest sample sampled)
    · intro side
      rcases edge side with ⟨point, sampled, equal, -⟩
      exact ⟨point, visits_of_mem_samples sampled, equal⟩
  · rintro before after rfl begun side
    rcases exists_furthest side.chooses drawn with ⟨outer, -, equal, furthest⟩
    rcases exists_furthest side.chooses begun with ⟨inner, sampled, equalInner, -⟩
    rw [equal, equalInner, side.round32_eq, side.round32_eq]
    exact side.saturate32_reaches
      (Side.round_reaches (furthest inner (mem_samples_append after sampled)))

def arch : Outline Rat := [.move ⟨10, 20⟩, .quadratic ⟨100, 300⟩ ⟨100, -300⟩]

theorem bounds_arch :
    arch.bounds = ⟨10, 20, 210, 170⟩ ∧
      (∀ side : Side, ∀ point ∈ arch.positions .origin,
        side.Reaches ((side.ofBox arch.bounds).toInt : Rat) (side.ofPoint point)) ∧
      (∀ side : Side, ∃ furthest ∈ arch.frame .origin,
        (∀ point ∈ arch.frame .origin,
          side.Reaches (side.ofPoint furthest) (side.ofPoint point)) ∧
        side.Reaches (side.round (side.ofPoint furthest)) (side.ofBox arch.bounds).toInt) ∧
      (∀ side : Side, ∃ point, Visits .origin arch point ∧
        (side.ofBox arch.bounds).toInt = side.round (side.ofPoint point)) ∧
      ∀ side : Side, side.Reaches (side.ofBox arch.bounds).toInt
        (side.ofBox (bounds [.move (⟨10, 20⟩ : Point Rat)])).toInt := by
  have fits : ∀ point ∈ arch.frame .origin, point.FitsIn32 := by
    have frame : arch.frame .origin = [⟨10, 20⟩, ⟨10, 20⟩, ⟨110, 320⟩, ⟨210, 20⟩] := by
      decide +kernel
    rw [frame]
    simp only [List.forall_mem_cons]
    refine ⟨?_, ?_, ?_, ?_, nofun⟩ <;> constructor <;> norm_num
  have fit := @bounds_fit arch (List.cons_ne_nil _ _)
  have ⟨holds, limited, reached⟩ := fit.1 fits
  exact ⟨by decide +kernel, holds, limited, reached,
    fit.2 [.move ⟨10, 20⟩] _ rfl (List.cons_ne_nil _ _)⟩

end Outline

end Letterform
