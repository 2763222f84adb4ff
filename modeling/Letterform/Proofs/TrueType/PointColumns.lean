import Letterform.TrueType.Outlines

/-!
Points whose positions and flags are kept in arrays of their own. Both arrays grow together when a
glyph is loaded, and only positions are changed when a component is put in its place, so that they
always are the two columns of the array of points.
-/

namespace Letterform.TrueType

structure PointColumns (α : Type) where
  positions : Array (Point α) := #[]
  flags : Array Bool := #[]
  ends : Array Nat := #[]

namespace PointColumns

variable {α : Type}

def contoursFrom (columns : PointColumns α) : (start : Nat) → List Nat →
    List (List (Point α) × List Bool)
  | _, [] => []
  | start, last :: ends =>
      let stop := last + 1
      (if start ≤ stop ∧ stop ≤ columns.positions.size ∧ stop ≤ columns.flags.size then
        [((columns.positions.extract start stop).toList,
          (columns.flags.extract start stop).toList)]
      else []) ++ contoursFrom columns stop ends

def contours (columns : PointColumns α) : List (List (Point α) × List Bool) :=
  columns.contoursFrom 0 columns.ends.toList

def modifyRange {β : Type} (update : β → β) : (count index : Nat) → Array β → Array β
  | 0, _, values => values
  | count + 1, index, values => modifyRange update count (index + 1) (values.modify index update)

def placeFrom (place : Point α → Point α) (start : Nat) (columns : PointColumns α) :
    PointColumns α :=
  { columns with
    positions := modifyRange place (columns.positions.size - start) start columns.positions }

variable [Coordinate α]

def push (columns : PointColumns α) (point : CurvePoint) : PointColumns α :=
  { columns with
    positions := columns.positions.push (OutlinePoint.ofCurvePoint point).position
    flags := columns.flags.push point.isOnCurve }

def appendSimple (id : GlyphId) (glyph : SimpleGlyph) (loaded : PointColumns α) :
    Except OutlineFault (PointColumns α) := do
  if !glyph.hasAscendingEnds then throw (.contourOrder id)
  let points ← liftRead id glyph.points
  let ends := glyph.ends.map fun last => loaded.positions.size + last.toNat
  return points.foldl push { loaded with ends := loaded.ends.appendList ends }

def appendComponent (append : GlyphId → PointColumns α → Except OutlineFault (PointColumns α))
    (id : GlyphId) (loaded : PointColumns α) (component : Except ReadError Component) :
    Except OutlineFault (PointColumns α) := do
  let component ← liftRead id component
  let place ← component.place id
  let start := loaded.positions.size
  return (← append component.glyph loaded).placeFrom place start

def append (outlines : Outlines) : (levels : Nat) → GlyphId → PointColumns α →
    Except OutlineFault (PointColumns α)
  | 0, id, _ => .error (.recursionLimit id outlines.depthLimit)
  | levels + 1, id, loaded => do
      match ← outlines.glyph? id with
      | none => return loaded
      | some (.simple glyph) => appendSimple id glyph loaded
      | some (.composite glyph) =>
          glyph.components.foldlM (appendComponent (append outlines levels) id) loaded

def load (outlines : Outlines) (id : GlyphId) : Except OutlineFault (PointColumns α) :=
  append outlines (outlines.depthLimit + 1) id {}

end PointColumns

namespace GlyphPoints

variable {α : Type}

def columns (glyph : GlyphPoints α) : PointColumns α where
  positions := glyph.points.map OutlinePoint.position
  flags := glyph.points.map OutlinePoint.isOnCurve
  ends := glyph.ends

theorem size_positions (glyph : GlyphPoints α) :
    glyph.columns.positions.size = glyph.points.size := Array.size_map

theorem size_flags (glyph : GlyphPoints α) : glyph.columns.flags.size = glyph.points.size :=
  Array.size_map

/-! Contours. -/

theorem contoursFrom_columns (glyph : GlyphPoints α) (start : Nat) (ends : List Nat) :
    glyph.columns.contoursFrom start ends =
      (contoursFrom glyph.points start ends).map fun contour =>
        (contour.map OutlinePoint.position, contour.map OutlinePoint.isOnCurve) := by
  induction ends generalizing start with
  | nil => rfl
  | cons last ends induction =>
      rw [PointColumns.contoursFrom, contoursFrom, List.map_append, induction]
      apply congrArg (· ++ _)
      simp only [size_positions, size_flags, and_self]
      split
      · simp [columns, ← Array.map_extract]
      · rfl

theorem contours_columns (glyph : GlyphPoints α) :
    glyph.columns.contours = glyph.contours.map fun contour =>
      (contour.map OutlinePoint.position, contour.map OutlinePoint.isOnCurve) :=
  glyph.contoursFrom_columns 0 glyph.ends.toList

/-! Placing. -/

theorem map_placeRange {β : Type} (read : OutlinePoint α → β) (update : β → β)
    {place : Point α → Point α} (reads : ∀ point, read (point.map place) = update (read point))
    (count index : Nat) (points : Array (OutlinePoint α)) :
    (placeRange place count index points).map read =
      PointColumns.modifyRange update count index (points.map read) := by
  induction count generalizing index points with
  | zero => rfl
  | succ count induction =>
      rw [placeRange, PointColumns.modifyRange, induction]
      apply congrArg (PointColumns.modifyRange update count (index + 1))
      apply Array.ext_getElem?
      intro other
      simp only [Array.getElem?_map, Array.getElem?_modify]
      split
      · cases points[other]? with
        | none => rfl
        | some point => exact congrArg some (reads point)
      · rfl

theorem modifyRange_id {β : Type} (count index : Nat) (values : Array β) :
    PointColumns.modifyRange id count index values = values := by
  induction count generalizing index values with
  | zero => rfl
  | succ count induction =>
      rw [PointColumns.modifyRange, induction]
      apply Array.ext_getElem?
      intro other
      rw [Array.getElem?_modify, Option.map_id_fun, id, ite_self]

theorem columns_placeFrom (place : Point α → Point α) (start : Nat) (glyph : GlyphPoints α) :
    (glyph.placeFrom place start).columns = glyph.columns.placeFrom place start := by
  rw [placeFrom, columns, map_placeRange OutlinePoint.position place fun _ => rfl,
    map_placeRange OutlinePoint.isOnCurve id fun _ => rfl, modifyRange_id, PointColumns.placeFrom,
    size_positions]
  rfl

/-! Loading. -/

variable [Coordinate α]

theorem columns_append_points (glyph : GlyphPoints α) (points : List CurvePoint) :
    points.foldl PointColumns.push glyph.columns =
      GlyphPoints.columns { glyph with
        points := glyph.points.appendList (points.map OutlinePoint.ofCurvePoint) } := by
  induction points generalizing glyph with
  | nil => simp [columns]
  | cons point points induction =>
      have pushed : glyph.columns.push point = GlyphPoints.columns { glyph with
          points := glyph.points.push (OutlinePoint.ofCurvePoint point) } := by
        simp [PointColumns.push, columns, OutlinePoint.ofCurvePoint]
      rw [List.foldl_cons, pushed, induction]
      simp [columns]

theorem appendSimple_columns (id : GlyphId) (glyph : SimpleGlyph) (loaded : GlyphPoints α) :
    PointColumns.appendSimple id glyph loaded.columns =
      (Outlines.appendSimple id glyph loaded).map columns := by
  rw [PointColumns.appendSimple, Outlines.appendSimple]
  cases glyph.hasAscendingEnds with
  | false => rfl
  | true =>
      cases decoded : liftRead id glyph.points with
      | error fault => rfl
      | ok points =>
          apply congrArg Except.ok
          rw [size_positions]
          exact columns_append_points
            { loaded with ends := loaded.ends.appendList _ } points

theorem foldlM_appendComponent_columns
    {append : GlyphId → GlyphPoints α → Except OutlineFault (GlyphPoints α)}
    {appendToo : GlyphId → PointColumns α → Except OutlineFault (PointColumns α)}
    (same : ∀ id (loaded : GlyphPoints α),
      appendToo id loaded.columns = (append id loaded).map columns)
    (id : GlyphId) (components : List (Except ReadError Component)) (loaded : GlyphPoints α) :
    components.foldlM (PointColumns.appendComponent appendToo id) loaded.columns =
      (components.foldlM (Outlines.appendComponent append id) loaded).map columns := by
  induction components generalizing loaded with
  | nil => rfl
  | cons component components induction =>
      have first : PointColumns.appendComponent appendToo id loaded.columns component =
          (Outlines.appendComponent append id loaded component).map columns := by
        rw [PointColumns.appendComponent, Outlines.appendComponent]
        cases liftRead id component with
        | error fault => rfl
        | ok component =>
            cases placed : (component.place id : Except OutlineFault (Point α → Point α)) with
            | error fault =>
                simp only [bind, Except.bind, placed]
                rfl
            | ok place =>
                simp only [bind, Except.bind, placed, same]
                cases append component.glyph loaded with
                | error fault => rfl
                | ok out =>
                    apply congrArg Except.ok
                    rw [size_positions]
                    exact (columns_placeFrom place loaded.points.size out).symm
      rw [List.foldlM_cons, List.foldlM_cons, first]
      cases Outlines.appendComponent append id loaded component with
      | error fault => rfl
      | ok out => exact induction out

theorem append_columns (outlines : Outlines) (levels : Nat) (id : GlyphId)
    (loaded : GlyphPoints α) :
    PointColumns.append outlines levels id loaded.columns =
      (outlines.append levels id loaded).map columns := by
  induction levels generalizing id loaded with
  | zero => rfl
  | succ levels induction =>
      rw [PointColumns.append, Outlines.append]
      cases outlines.glyph? id with
      | error fault => rfl
      | ok found =>
          cases found with
          | none => rfl
          | some glyph =>
              cases glyph with
              | simple glyph => exact appendSimple_columns id glyph loaded
              | composite glyph =>
                  exact foldlM_appendComponent_columns induction id glyph.components loaded

/-- Two arrays are loaded like one, fault for fault. -/
theorem load_columns (outlines : Outlines) (id : GlyphId) :
    (PointColumns.load outlines id : Except OutlineFault (PointColumns α)) =
      (outlines.points id).map columns := by
  have empty : ({} : GlyphPoints α).columns = {} := by simp [columns]
  rw [PointColumns.load, ← empty]
  exact append_columns outlines (outlines.depthLimit + 1) id {}

theorem size_flags_of_load {outlines : Outlines} {id : GlyphId} {loaded : PointColumns α}
    (isLoaded : PointColumns.load outlines id = .ok loaded) :
    loaded.flags.size = loaded.positions.size := by
  rw [load_columns] at isLoaded
  cases found : (outlines.points id : Except OutlineFault (GlyphPoints α)) with
  | error fault =>
      rw [found] at isLoaded
      cases isLoaded
  | ok glyph =>
      rw [found] at isLoaded
      cases isLoaded
      rw [size_flags, size_positions]

end GlyphPoints

end Letterform.TrueType
