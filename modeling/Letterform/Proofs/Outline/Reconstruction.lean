import Letterform.Outline.Path
import Mathlib.Algebra.Group.Basic
import Mathlib.Algebra.Ring.Rat

/-!
Paths and outlines tell the same. Where sums undo differences, the steps of an outline lead
through the points of the path that they were taken from. An outline does not keep where
contours are closed, but what is drawn from it closes them all.
-/

namespace Letterform

variable {α : Type}

/-! Contours as they are drawn from outlines. -/

inductive Segment (α : Type)
  | line (point : Point α)
  | quadratic (control last : Point α)
  | cubic (first second last : Point α)
  deriving DecidableEq, Repr

def Segment.element : Segment α → PathElement α
  | .line point => .line point
  | .quadratic control last => .quadratic control last
  | .cubic first second last => .cubic first second last

structure DrawnContour (α : Type) where
  start : Point α
  segments : List (Segment α)
  deriving DecidableEq, Repr

def PathElement.isClose : PathElement α → Bool
  | .close => true
  | _ => false

namespace Path

def ofSegments (segments : List (Segment α)) : Path α := segments.map Segment.element

theorem ofSegments_append (first second : List (Segment α)) :
    ofSegments (first ++ second) = ofSegments first ++ ofSegments second :=
  List.map_append

def ofContours (contours : List (DrawnContour α)) : Path α :=
  contours.flatMap fun contour => .move contour.start :: (ofSegments contour.segments ++ [.close])

theorem ofContours_cons (contour : DrawnContour α) (contours : List (DrawnContour α)) :
    ofContours (contour :: contours) =
      .move contour.start :: (ofSegments contour.segments ++ .close :: ofContours contours) := by
  simp [ofContours]

/-! Leaving out closes and putting them back. -/

def withoutCloses (path : Path α) : Path α := path.filter fun element => !element.isClose

theorem withoutCloses_ofSegments (segments : List (Segment α)) :
    (ofSegments segments).withoutCloses = ofSegments segments := by
  apply List.filter_eq_self.mpr
  intro element member
  rcases List.mem_map.mp member with ⟨segment, -, rfl⟩
  cases segment <;> rfl

theorem withoutCloses_append (first second : Path α) :
    (first ++ second).withoutCloses = first.withoutCloses ++ second.withoutCloses :=
  List.filter_append first second

theorem withoutCloses_ofContours_cons (contour : DrawnContour α)
    (contours : List (DrawnContour α)) :
    (ofContours (contour :: contours)).withoutCloses =
      .move contour.start ::
        (ofSegments contour.segments ++ (ofContours contours).withoutCloses) := by
  rw [ofContours_cons]
  apply congrArg (List.cons _)
  have split := withoutCloses_append (ofSegments contour.segments)
    (.close :: ofContours contours)
  rw [withoutCloses_ofSegments] at split
  exact split

def pendingClose (isOpen : Bool) : Path α := if isOpen then [.close] else []

theorem closeContours_move (isOpen : Bool) (point : Point α) (path : Path α) :
    closeContours isOpen (.move point :: path) =
      pendingClose isOpen ++ .move point :: closeContours true path :=
  rfl

theorem closeContours_segment (isOpen : Bool) (segment : Segment α) (path : Path α) :
    closeContours isOpen (segment.element :: path) =
      segment.element :: closeContours isOpen path := by
  cases segment <;> rfl

theorem closeContours_ofSegments (isOpen : Bool) (segments : List (Segment α)) (path : Path α) :
    closeContours isOpen (ofSegments segments ++ path) =
      ofSegments segments ++ closeContours isOpen path := by
  induction segments with
  | nil => rfl
  | cons segment segments induction =>
      exact (closeContours_segment isOpen segment _).trans (congrArg (List.cons _) induction)

theorem closeContours_ofContours (isOpen : Bool) (contours : List (DrawnContour α)) :
    closeContours isOpen (ofContours contours).withoutCloses =
      pendingClose isOpen ++ ofContours contours := by
  induction contours generalizing isOpen with
  | nil => exact (List.append_nil _).symm
  | cons contour contours induction =>
      rw [withoutCloses_ofContours_cons, closeContours_move, closeContours_ofSegments, induction,
        ofContours_cons]
      rfl

/-! Exact steps. -/

def IsExact [Add α] [Sub α] : (position : Point α) → Path α → Prop
  | _, [] => True
  | position, element :: elements =>
      (∀ step, element.step? position = some step → step.element position = element) ∧
        IsExact (element.after position) elements

theorem elements_steps [Add α] [Sub α] {position : Point α} {path : Path α}
    (exact : path.IsExact position) :
    (path.steps position).elements position = path.withoutCloses := by
  induction path generalizing position with
  | nil => rfl
  | cons element elements induction =>
      rcases exact with ⟨drawn, exact⟩
      cases stepped : element.step? position with
      | none =>
          cases element with
          | close => exact induction exact
          | move | line | quadratic | cubic => cases stepped
      | some step =>
          have isOpen : element.isClose = false := by
            cases element with
            | close => cases stepped
            | move | line | quadratic | cubic => rfl
          rw [steps, stepped, Option.toList_some, List.singleton_append, Outline.elements,
            drawn step stepped, induction exact, withoutCloses, withoutCloses,
            List.filter_cons_of_pos (by rw [isOpen]; rfl)]

/-- A path with exact steps comes back with all of its contours closed. -/
theorem toPath_toOutline [Coordinate α] {path : Path α} (exact : path.IsExact .origin) :
    path.toOutline.toPath = closeContours false path.withoutCloses :=
  congrArg (closeContours false) (elements_steps exact)

theorem toPath_toOutline_ofContours [Coordinate α] {contours : List (DrawnContour α)}
    (exact : (ofContours contours).IsExact .origin) :
    (ofContours contours).toOutline.toPath = ofContours contours := by
  rw [toPath_toOutline exact, closeContours_ofContours]
  rfl

theorem steps_pendingClose [Sub α] (isOpen : Bool) (position : Point α) (path : Path α) :
    (pendingClose isOpen ++ path).steps position = path.steps position := by
  cases isOpen <;> rfl

theorem steps_closeContours [Sub α] (isOpen : Bool) (position : Point α) (path : Path α) :
    (closeContours isOpen path).steps position = path.steps position := by
  induction path generalizing isOpen position with
  | nil => cases isOpen <;> rfl
  | cons element elements induction =>
      cases element with
      | move point =>
          rw [closeContours_move, steps_pendingClose]
          exact congrArg (List.cons _) (induction true point)
      | line | quadratic | cubic => exact congrArg (List.cons _) (induction isOpen _)
      | close => exact induction isOpen position

end Path

namespace Outline

def IsExact [Add α] [Sub α] : (position : Point α) → Outline α → Prop
  | _, [] => True
  | position, step :: steps =>
      (step.element position).step? position = some step ∧
        IsExact ((step.element position).after position) steps

theorem steps_elements [Add α] [Sub α] {position : Point α} {outline : Outline α}
    (exact : outline.IsExact position) :
    (outline.elements position).steps position = outline := by
  induction outline generalizing position with
  | nil => rfl
  | cons step steps induction =>
      rcases exact with ⟨stepped, exact⟩
      rw [elements, Path.steps, stepped, induction exact]
      rfl

theorem toOutline_toPath [Coordinate α] {outline : Outline α} (exact : outline.IsExact .origin) :
    outline.toPath.toOutline = outline := by
  rw [toPath, Path.toOutline, Path.steps_closeContours, steps_elements exact]

end Outline

/-! Rational coordinates. -/

theorem Point.add_sub (first second : Point Rat) : first + (second - first) = second :=
  congrArg₂ Point.mk (add_sub_cancel first.x second.x) (add_sub_cancel first.y second.y)

theorem Point.add_sub_left (first offset : Point Rat) : first + offset - first = offset :=
  congrArg₂ Point.mk (add_sub_cancel_left first.x offset.x) (add_sub_cancel_left first.y offset.y)

theorem Path.isExact (position : Point Rat) (path : Path Rat) : path.IsExact position := by
  induction path generalizing position with
  | nil => trivial
  | cons element elements induction =>
      refine ⟨?_, induction _⟩
      intro step stepped
      cases element with
      | close => cases stepped
      | move | line | quadratic | cubic =>
          cases stepped
          simp only [Step.element, Point.add_sub]

theorem Outline.isExact (position : Point Rat) (outline : Outline Rat) :
    outline.IsExact position := by
  induction outline generalizing position with
  | nil => trivial
  | cons step steps induction =>
      refine ⟨?_, induction _⟩
      cases step <;> simp only [Step.element, PathElement.step?, Point.add_sub_left]

/-- In exact arithmetic closed contours come back with the same points, and steps come back from
what they draw. -/
theorem outline_reconstructs :
    (∀ contours : List (DrawnContour Rat),
      (Path.ofContours contours).toOutline.toPath = Path.ofContours contours) ∧
    ∀ outline : Outline Rat, outline.toPath.toOutline = outline := by
  constructor
  · intro contours
    exact Path.toPath_toOutline_ofContours (Path.isExact _ _)
  · intro outline
    exact Outline.toOutline_toPath (outline.isExact _)

/-! Paths of outlines. -/

theorem Step.element_eq [Add α] (position : Point α) (step : Step α) :
    (∃ point, step.element position = .move point) ∨
      ∃ segment : Segment α, step.element position = segment.element := by
  cases step with
  | move offset => exact .inl ⟨_, rfl⟩
  | line offset => exact .inr ⟨.line _, rfl⟩
  | quadratic control last => exact .inr ⟨.quadratic _ _, rfl⟩
  | cubic first second last => exact .inr ⟨.cubic _ _ _, rfl⟩

/-- Segments in front of the first move belong to no contour and are not closed. -/
theorem Path.exists_closeContours [Add α] (isOpen : Bool) (position : Point α)
    (outline : Outline α) :
    ∃ segments contours, closeContours isOpen (outline.elements position) =
      ofSegments segments ++ (pendingClose isOpen ++ ofContours contours) := by
  induction outline generalizing isOpen position with
  | nil => exact ⟨[], [], (List.append_nil _).symm⟩
  | cons step steps induction =>
      simp only [Outline.elements]
      rcases step.element_eq position with ⟨point, drawn⟩ | ⟨segment, drawn⟩
      · rw [drawn, closeContours_move]
        rcases induction true _ with ⟨segments, contours, equal⟩
        refine ⟨[], ⟨point, segments⟩ :: contours, ?_⟩
        rw [equal, ofContours_cons]
        rfl
      · rw [drawn, closeContours_segment]
        rcases induction isOpen _ with ⟨segments, contours, equal⟩
        exact ⟨segment :: segments, contours, congrArg (List.cons _) equal⟩

theorem Path.toPath_toOutline_iff (path : Path Rat) :
    path.toOutline.toPath = path ↔
      ∃ segments contours, path = ofSegments segments ++ ofContours contours := by
  constructor
  · intro unchanged
    rcases exists_closeContours false .origin path.toOutline with ⟨segments, contours, equal⟩
    exact ⟨segments, contours, unchanged.symm.trans equal⟩
  · rintro ⟨segments, contours, rfl⟩
    rw [toPath_toOutline (isExact _ _), withoutCloses_append, withoutCloses_ofSegments,
      closeContours_ofSegments, closeContours_ofContours]
    rfl

end Letterform
