import Letterform.Outline.Bounds

/-!
Boxes side by side. What holds of one side of a box holds of the others: it is where the points
come that are furthest out on that side.
-/

namespace Letterform

variable {α : Type}

/-! Choosing. -/

structure Chooses (choose : α → α → α) (Before : α → α → Prop) : Prop where
  choice : ∀ first second, choose first second = first ∨ choose first second = second
  left : ∀ first second, Before (choose first second) first
  right : ∀ first second, Before (choose first second) second
  trans : ∀ {first second third}, Before first second → Before second third → Before first third

namespace Chooses

variable {choose : α → α → α} {Before : α → α → Prop} (chooses : Chooses choose Before)

include chooses

theorem refl (value : α) : Before value value := by
  have same : choose value value = value := (chooses.choice value value).elim id id
  have before := chooses.left value value
  rw [same] at before
  exact before

theorem foldl_mem (value : α) (values : List α) : values.foldl choose value ∈ value :: values := by
  induction values generalizing value with
  | nil => exact List.mem_singleton_self value
  | cons other values induction =>
      have member := induction (choose value other)
      rcases chooses.choice value other with first | second
      · rw [first] at member
        rw [List.foldl_cons, first]
        exact List.mem_cons.mpr
          ((List.mem_cons.mp member).imp_right (List.mem_cons_of_mem other))
      · rw [second] at member
        rw [List.foldl_cons, second]
        exact List.mem_cons_of_mem value member

theorem foldl_before (value : α) (values : List α) :
    ∀ other ∈ value :: values, Before (values.foldl choose value) other := by
  induction values generalizing value with
  | nil => exact List.forall_mem_singleton.mpr (chooses.refl value)
  | cons next values induction =>
      have ⟨chosen, rest⟩ := List.forall_mem_cons.mp (induction (choose value next))
      intro other member
      rcases List.mem_cons.mp member with rfl | member
      · exact chooses.trans chosen (chooses.left _ _)
      · rcases List.mem_cons.mp member with rfl | member
        · exact chooses.trans chosen (chooses.right _ _)
        · exact rest other member

theorem exists_first {values : List α} (some : values ≠ []) :
    ∃ value ∈ values, ∀ other ∈ values, Before value other := by
  cases values with
  | nil => exact absurd rfl some
  | cons value values =>
      exact ⟨_, chooses.foldl_mem value values, chooses.foldl_before value values⟩

end Chooses

/-! Sides. -/

inductive Side
  | left
  | bottom
  | right
  | top
  deriving DecidableEq, Repr

namespace Side

def ofBox (box : Box α) : Side → α
  | .left => box.xMin
  | .bottom => box.yMin
  | .right => box.xMax
  | .top => box.yMax

def ofPoint (point : Point α) : Side → α
  | .left | .right => point.x
  | .bottom | .top => point.y

/-- The outer value is at least as far out on this side as the inner one. -/
def Reaches [LE α] (outer inner : α) : Side → Prop
  | .left | .bottom => outer ≤ inner
  | .right | .top => inner ≤ outer

variable (side : Side)

theorem ofBox_ofPoint (point : Point α) : side.ofBox (.ofPoint point) = side.ofPoint point := by
  cases side <;> rfl

variable [Coordinate α]

def choose : Side → α → α → α
  | .left | .bottom => Coordinate.least
  | .right | .top => Coordinate.greatest

def round32 (value : α) : Side → Int32
  | .left | .bottom => Coordinate.floor32 value
  | .right | .top => Coordinate.ceiling32 value

theorem ofBox_extend (box : Box α) (point : Point α) :
    side.ofBox (box.extend point) = side.choose (side.ofBox box) (side.ofPoint point) := by
  cases side <;> rfl

theorem ofBox_roundOutward (box : Box α) :
    side.ofBox box.roundOutward = side.round32 (side.ofBox box) := by
  cases side <;> rfl

theorem ofBox_foldl_extend (box : Box α) (points : List (Point α)) :
    side.ofBox (points.foldl Box.extend box) =
      (points.map fun point => side.ofPoint point).foldl side.choose (side.ofBox box) := by
  induction points generalizing box with
  | nil => rfl
  | cons point points induction =>
      rw [List.foldl_cons, induction, ofBox_extend]
      rfl

end Side

/-! Boxes of outlines. -/

namespace Outline

variable [Coordinate α]

theorem samples_ne_nil (start : Point α) {outline : Outline α} (drawn : outline ≠ []) :
    outline.samples start ≠ [] := by
  cases outline with
  | nil => exact absurd rfl drawn
  | cons step steps => simp [samples, Step.samples]

theorem exists_furthest {side : Side} {Before : α → α → Prop}
    (chooses : Chooses side.choose Before) {outline : Outline α} (drawn : outline ≠ []) :
    ∃ point ∈ outline.samples .origin,
      side.ofBox outline.bounds = side.round32 (side.ofPoint point) ∧
        ∀ other ∈ outline.samples .origin, Before (side.ofPoint point) (side.ofPoint other) := by
  cases sampled : outline.samples .origin with
  | nil => exact absurd sampled (samples_ne_nil .origin drawn)
  | cons point points =>
      have bounds : outline.bounds =
          ((point :: points).foldl Box.extend (.ofPoint point)).roundOutward := by
        rw [Outline.bounds, sampled]
        rfl
      have edge := side.ofBox_foldl_extend (.ofPoint point) (point :: points)
      rw [side.ofBox_ofPoint] at edge
      generalize ((point :: points).foldl Box.extend (.ofPoint point)) = box at bounds edge
      have member : side.ofBox box ∈ (point :: points).map fun point => side.ofPoint point := by
        rw [edge]
        rcases List.mem_cons.mp (chooses.foldl_mem _ _) with same | member
        · rw [same]
          exact List.mem_cons_self
        · exact member
      have before : ∀ other ∈ (point :: points).map fun point => side.ofPoint point,
          Before (side.ofBox box) other := by
        rw [edge]
        exact (List.forall_mem_cons.mp (chooses.foldl_before _ _)).2
      rcases List.mem_map.mp member with ⟨furthest, among, equal⟩
      refine ⟨furthest, among, ?_, ?_⟩
      · rw [bounds, side.ofBox_roundOutward, equal]
      · intro other present
        rw [equal]
        exact before _ (List.mem_map_of_mem present)

end Outline

end Letterform
