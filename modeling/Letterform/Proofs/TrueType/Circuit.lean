import Letterform.Proofs.Outline.Reconstruction
import Letterform.TrueType.Contour
import Mathlib.Data.List.Rotate

/-!
Contours are drawn all around. A point and the next one tell what is drawn between them, and
after the last point comes the first. Which point a contour is listed from is not to be seen in
what is drawn, but for the line that is left to the close.
-/

namespace Letterform

def Segment.stop {α : Type} : Segment α → Point α
  | .line point => point
  | .quadratic _ last => last
  | .cubic _ _ last => last

theorem isRotated_filterMap {α β : Type} (image? : α → Option β) {values turned : List α}
    (rotated : values ~r turned) : values.filterMap image? ~r turned.filterMap image? := by
  rcases rotated with ⟨count, rfl⟩
  have parts := List.take_append_drop (count % values.length) values
  rw [List.rotate_eq_drop_append_take_mod, List.filterMap_append]
  nth_rewrite 1 [← parts]
  rw [List.filterMap_append]
  exact List.isRotated_append

namespace TrueType

variable {α : Type}

namespace Contour

def closingLine (contour : Contour α) : List (Segment α) :=
  match contour.head?, contour.getLast? with
  | some first, some last =>
      if first.isOnCurve && last.isOnCurve then [.line first.position] else []
  | _, _ => []

end Contour

variable [Coordinate α]

/-! The segments of a contour. -/

/-- What is drawn from a point to the next. A point off the curve is a control, and its curve
ends at the next point or halfway to it. A point on the curve is joined to the next if that is on
the curve too. -/
def OutlinePoint.segmentTo? (point next : OutlinePoint α) : Option (Segment α) :=
  match point.isOnCurve, next.isOnCurve with
  | true, true => some (.line next.position)
  | true, false => none
  | false, true => some (.quadratic point.position next.position)
  | false, false => some (.quadratic point.position (point.position.midpoint next.position))

namespace Contour

/-- The segments all around a contour, from its first point to its first point. -/
def circuit (contour : Contour α) : List (Segment α) :=
  (contour.zip (contour.rotate 1)).filterMap fun pair => pair.1.segmentTo? pair.2

inductive Begins : Contour α → Point α → Contour α → Prop
  | first {point : OutlinePoint α} (points : Contour α) (on : point.isOnCurve) :
      Begins (point :: points) point.position (point :: points)
  | last {points : Contour α} {first last : OutlinePoint α} (head : points.head? = some first)
      (off : first.isOnCurve = false) (on : last.isOnCurve) :
      Begins (points ++ [last]) last.position (last :: points)
  | between {contour : Contour α} {first last : OutlinePoint α}
      (head : contour.head? = some first) (tail : contour.getLast? = some last)
      (firstOff : first.isOnCurve = false) (lastOff : last.isOnCurve = false) :
      Begins contour (last.position.midpoint first.position) contour

/-- The contour is drawn through the points in this order. With the line of the close it is
closed, and it has all segments around the points. -/
structure IsDrawn (contour : Contour α) (drawn : DrawnContour α) (turned : Contour α) : Prop where
  begins : Begins contour drawn.start turned
  path : contour.toPath = Path.ofContours [drawn]
  circuit : drawn.segments ++ turned.closingLine = turned.circuit
  closed : turned.circuit.getLast?.map Segment.stop = some drawn.start

/-! Segments from point to point. -/

def trail : (point : OutlinePoint α) → Contour α → List (Segment α)
  | _, [] => []
  | point, next :: points => (point.segmentTo? next).toList ++ trail next points

def control? (point : OutlinePoint α) : Option (Point α) :=
  if point.isOnCurve then none else some point.position

def finish (start : Point α) (last : OutlinePoint α) : List (Segment α) :=
  if last.isOnCurve then [] else [.quadratic last.position start]

theorem segments_cons (start : Point α) (point next : OutlinePoint α) (points : Contour α) :
    segments start (control? point) (next :: points) =
      Path.ofSegments (point.segmentTo? next).toList ++ segments start (control? next) points := by
  rw [control?, control?, OutlinePoint.segmentTo?]
  cases point.isOnCurve <;> cases nextOn : next.isOnCurve <;>
    simp [segments, nextOn, Path.ofSegments, Segment.element]

theorem segments_eq_trail (start : Point α) (point : OutlinePoint α) (points : Contour α) :
    segments start (control? point) points =
      Path.ofSegments (trail point points ++
        finish start ((point :: points).getLast (List.cons_ne_nil _ _))) ++ [.close] := by
  induction points generalizing point with
  | nil =>
      rw [List.getLast_singleton, control?, finish]
      cases point.isOnCurve <;> rfl
  | cons next points induction =>
      rw [segments_cons, induction next, List.getLast_cons_cons, trail, ← List.append_assoc,
        ← Path.ofSegments_append, List.append_assoc]

theorem filterMap_zip_eq_trail (point next : OutlinePoint α) (points : Contour α) :
    ((point :: points).zip (points ++ [next])).filterMap (fun pair => pair.1.segmentTo? pair.2) =
      trail point points ++
        (((point :: points).getLast (List.cons_ne_nil _ _)).segmentTo? next).toList := by
  induction points generalizing point with
  | nil =>
      rw [List.getLast_singleton]
      cases found : point.segmentTo? next <;> simp [trail, found]
  | cons second points induction =>
      rw [List.cons_append, List.zip_cons_cons, List.getLast_cons_cons, trail, List.append_assoc,
        ← induction second]
      cases found : point.segmentTo? second <;> simp [found]

theorem circuit_cons (point : OutlinePoint α) (points : Contour α) :
    circuit (point :: points) = trail point points ++
      (((point :: points).getLast (List.cons_ne_nil _ _)).segmentTo? point).toList := by
  rw [circuit, List.rotate_cons_succ, List.rotate_zero, filterMap_zip_eq_trail]

theorem circuit_of_isRotated {contour turned : Contour α} (rotated : contour ~r turned) :
    contour.circuit ~r turned.circuit := by
  rcases rotated with ⟨count, rfl⟩
  have pairs : (contour.zip (contour.rotate 1)).rotate count =
      (contour.rotate count).zip ((contour.rotate count).rotate 1) := by
    have rotated := List.zipWith_rotate_distrib Prod.mk _ _ count (contour.length_rotate 1).symm
    rwa [List.rotate_rotate, Nat.add_comm, ← List.rotate_rotate] at rotated
  apply isRotated_filterMap
  exact ⟨count, pairs⟩

/-! The start of a contour. -/

theorem exists_begins {contour : Contour α} (notEmpty : contour ≠ []) :
    ∃ start turned, Begins contour start turned := by
  rcases contour with _ | ⟨first, points⟩
  · contradiction
  · cases on : first.isOnCurve with
    | true => exact ⟨_, _, .first points on⟩
    | false =>
        rcases List.eq_nil_or_concat' points with rfl | ⟨middle, last, rfl⟩
        · exact ⟨_, _, .between rfl rfl on on⟩
        · cases lastOn : last.isOnCurve with
          | true =>
              have begins : Begins ((first :: middle) ++ [last]) last.position
                (last :: first :: middle) := .last rfl on lastOn
              exact ⟨_, _, begins⟩
          | false =>
              have tail : (first :: (middle ++ [last])).getLast? = some last :=
                List.getLast?_concat (l := first :: middle)
              exact ⟨_, _, .between rfl tail on lastOn⟩

theorem Begins.isRotated {contour turned : Contour α} {start : Point α}
    (begins : Begins contour start turned) : contour ~r turned := by
  cases begins with
  | first points on => exact List.IsRotated.refl _
  | last head off on => exact List.isRotated_append
  | between head tail firstOff lastOff => exact List.IsRotated.refl _

theorem Begins.start_eq {contour points : Contour α} {point last : OutlinePoint α} {start : Point α}
    (begins : Begins contour start (point :: points))
    (tail : (point :: points).getLast? = some last) :
    point.isOnCurve ∧ start = point.position ∨
      point.isOnCurve = false ∧ last.isOnCurve = false ∧
        start = last.position.midpoint point.position := by
  cases begins with
  | first points on => exact .inl ⟨on, rfl⟩
  | last head off on => exact .inl ⟨on, rfl⟩
  | between head found firstOff lastOff =>
      cases head
      rw [tail] at found
      cases found
      exact .inr ⟨firstOff, lastOff, rfl⟩

theorem Begins.toPath {contour turned : Contour α} {start : Point α}
    (begins : Begins contour start turned) :
    ∃ point points, turned = point :: points ∧
      contour.toPath = .move start :: segments start (control? point) points := by
  cases begins with
  | @first point points on =>
      have tail := List.getLast?_eq_some_getLast (List.cons_ne_nil point points)
      refine ⟨point, points, rfl, ?_⟩
      simp [Contour.toPath, start?, control?, tail, on]
  | @last points first last head off on =>
      refine ⟨last, points, rfl, ?_⟩
      simp [Contour.toPath, start?, control?, head, off, on]
  | @between contour first last head tail firstOff lastOff =>
      rcases List.head?_eq_some_iff.mp head with ⟨points, rfl⟩
      refine ⟨first, points, rfl, ?_⟩
      simp [Contour.toPath, start?, control?, segments, tail, firstOff, lastOff]

/-- What is drawn from the last point to the first leads back to the start. It is the curve that
was still to come, or else the line of the close. -/
theorem Begins.finish {contour points : Contour α} {point last : OutlinePoint α} {start : Point α}
    (begins : Begins contour start (point :: points))
    (tail : (point :: points).getLast? = some last) :
    ∃ segment, last.segmentTo? point = some segment ∧ segment.stop = start ∧
      Contour.finish start last ++ closingLine (point :: points) = [segment] := by
  have closing : closingLine (point :: points) =
      if point.isOnCurve && last.isOnCurve then [.line point.position] else [] := by
    rw [closingLine, List.head?_cons, tail]
  rw [closing, OutlinePoint.segmentTo?, Contour.finish]
  rcases begins.start_eq tail with ⟨on, rfl⟩ | ⟨off, lastOff, rfl⟩
  · rw [on]
    cases last.isOnCurve with
    | true => exact ⟨.line point.position, rfl, rfl, rfl⟩
    | false => exact ⟨.quadratic last.position point.position, rfl, rfl, rfl⟩
  · rw [off, lastOff]
    exact ⟨.quadratic last.position (last.position.midpoint point.position), rfl, rfl, rfl⟩

theorem Begins.isDrawn {contour turned : Contour α} {start : Point α}
    (begins : Begins contour start turned) : ∃ drawn, contour.IsDrawn drawn turned := by
  rcases begins.toPath with ⟨point, points, rfl, path⟩
  have tail := List.getLast?_eq_some_getLast (List.cons_ne_nil point points)
  let last := (point :: points).getLast (List.cons_ne_nil point points)
  rcases begins.finish tail with ⟨segment, back, stop, finish⟩
  let drawn : DrawnContour α := ⟨start, trail point points ++ Contour.finish start last⟩
  refine ⟨drawn, begins, ?path, ?circuit, ?closed⟩
  case path =>
    rw [path, segments_eq_trail, Path.ofContours_cons]
    rfl
  case circuit => rw [circuit_cons, back, List.append_assoc, finish, Option.toList_some]
  case closed =>
    rw [circuit_cons, back, Option.toList_some, List.getLast?_concat, Option.map_some, stop]

/-- A contour is drawn through all the segments around it, but for the line of the close. They
are the same segments around from whichever point the contour is listed. -/
theorem exists_isDrawn_rotate {contour : Contour α} (notEmpty : contour ≠ []) :
    ∃ drawn turned, contour.IsDrawn drawn turned ∧
      ∀ count, ∃ other otherTurned, IsDrawn (contour.rotate count) other otherTurned ∧
        (other.segments ++ otherTurned.closingLine) ~r (drawn.segments ++ turned.closingLine) := by
  rcases exists_begins notEmpty with ⟨start, turned, begins⟩
  rcases begins.isDrawn with ⟨drawn, isDrawn⟩
  refine ⟨drawn, turned, isDrawn, ?_⟩
  intro count
  have rotatedNotEmpty : contour.rotate count ≠ [] := mt List.rotate_eq_nil_iff.mp notEmpty
  rcases exists_begins rotatedNotEmpty with ⟨otherStart, otherTurned, otherBegins⟩
  rcases otherBegins.isDrawn with ⟨other, otherIsDrawn⟩
  refine ⟨other, otherTurned, otherIsDrawn, ?_⟩
  have isRotation : contour ~r contour.rotate count := ⟨count, rfl⟩
  rw [otherIsDrawn.circuit, isDrawn.circuit]
  apply circuit_of_isRotated
  exact (isRotation.trans otherBegins.isRotated).symm.trans begins.isRotated

/-- A contour from a point off the curve, with a line between two of its points. -/
theorem exists_isDrawn_rotate_four :
    let contour : Contour Rat := [⟨⟨0, 4⟩, false⟩, ⟨⟨4, 4⟩, true⟩, ⟨⟨4, 0⟩, true⟩, ⟨⟨0, 0⟩, false⟩]
    contour ≠ [] ∧ ∃ drawn turned, contour.IsDrawn drawn turned ∧
      ∀ count, ∃ other otherTurned, IsDrawn (contour.rotate count) other otherTurned ∧
        (other.segments ++ otherTurned.closingLine) ~r (drawn.segments ++ turned.closingLine) := by
  intro contour
  have notEmpty : contour ≠ [] := List.cons_ne_nil _ _
  exact ⟨notEmpty, exists_isDrawn_rotate notEmpty⟩

end Contour

end TrueType

end Letterform
