import Letterform.Proofs.Bytes.Reading
import Letterform.TrueType.Outlines

/-!
Composite glyphs without nesting. A glyph stands for a list of points: its own, or those of
its components one after the other, each component put in its place. Loading a glyph adds
these points to what is already there, although all components are loaded into one array
and are put in place there.
-/

namespace Letterform.TrueType

/-! Joining the points of glyphs. -/

namespace GlyphPoints

variable {α : Type}

/-- The points of both glyphs. The ends of the second one count from its own first point. -/
def join (first second : GlyphPoints α) : GlyphPoints α where
  points := first.points ++ second.points
  ends := first.ends ++ second.ends.map (first.points.size + ·)

instance : Append (GlyphPoints α) := ⟨join⟩

theorem append_eq (first second : GlyphPoints α) :
    first ++ second =
      ⟨first.points ++ second.points, first.ends ++ second.ends.map (first.points.size + ·)⟩ :=
  rfl

theorem append_empty (glyph : GlyphPoints α) : glyph ++ ({} : GlyphPoints α) = glyph := by
  rw [append_eq, Array.map_empty, Array.append_empty, Array.append_empty]

theorem empty_append (glyph : GlyphPoints α) : ({} : GlyphPoints α) ++ glyph = glyph := by
  simp [append_eq]

theorem append_assoc (first second third : GlyphPoints α) :
    first ++ second ++ third = first ++ (second ++ third) := by
  simp only [append_eq, Array.append_assoc, Array.map_append, Array.map_map, Array.size_append]
  congr 4
  funext last
  exact Nat.add_assoc _ _ _

def concat (glyphs : List (GlyphPoints α)) : GlyphPoints α := glyphs.foldr (· ++ ·) {}

def map (place : Point α → Point α) (glyph : GlyphPoints α) : GlyphPoints α :=
  { glyph with points := glyph.points.map fun point => point.map place }

/-! Placing points where they stand. -/

theorem getElem?_placeRange (place : Point α → Point α) (count start : Nat)
    (points : Array (OutlinePoint α)) (index : Nat) :
    (placeRange place count start points)[index]? =
      if start ≤ index ∧ index < start + count then
        points[index]?.map fun point => point.map place
      else points[index]? := by
  induction count generalizing start points with
  | zero =>
      rw [placeRange, if_neg (by omega)]
  | succ count induction =>
      rw [placeRange, induction, Array.getElem?_modify]
      by_cases isFirst : start = index
      · rw [if_neg (by omega), if_pos isFirst, if_pos (by omega)]
      · rw [if_neg isFirst]
        by_cases inside : start + 1 ≤ index ∧ index < start + 1 + count
        · rw [if_pos inside, if_pos (by omega)]
        · rw [if_neg inside, if_neg (by omega)]

/-- Points that stand behind others are put in place as they would be alone. -/
theorem placeFrom_append (place : Point α → Point α) (loaded flat : GlyphPoints α) :
    (loaded ++ flat).placeFrom place loaded.points.size = loaded ++ flat.map place := by
  have same : placeRange place ((loaded.points ++ flat.points).size - loaded.points.size)
      loaded.points.size (loaded.points ++ flat.points) =
        loaded.points ++ flat.points.map fun point => point.map place := by
    apply Array.ext_getElem?
    intro index
    rw [getElem?_placeRange, Array.size_append, Array.getElem?_append, Array.getElem?_append]
    by_cases before : index < loaded.points.size
    · rw [if_neg (by omega), if_pos before, if_pos before]
    · rw [if_neg before, if_neg before, Array.getElem?_map]
      by_cases within : index < loaded.points.size + flat.points.size
      · rw [if_pos (by omega)]
      · rw [if_neg (by omega), Array.getElem?_eq_none (by omega)]
        rfl
  rw [append_eq, append_eq, placeFrom, same]
  rfl

end GlyphPoints

variable {α : Type} [Coordinate α]

/-! What glyphs stand for. -/

structure Part (α : Type) where
  component : Component
  offset : Point Int16
  flat : GlyphPoints α

namespace Part

def image (part : Part α) (point : Point α) : Point α :=
  let transform := part.component.transform
  let scaled : Point α :=
    if transform = .identity then point
    else {
      x := point.x * Coordinate.ofF2Dot14 transform.xx + point.y * Coordinate.ofF2Dot14 transform.xy
      y := point.x * Coordinate.ofF2Dot14 transform.yx +
        point.y * Coordinate.ofF2Dot14 transform.yy }
  ⟨scaled.x + Coordinate.ofInt part.offset.x.toInt, scaled.y + Coordinate.ofInt part.offset.y.toInt⟩

def placed (part : Part α) : GlyphPoints α := part.flat.map part.image

end Part

namespace SimpleGlyph

def flat (glyph : SimpleGlyph) (points : List CurvePoint) : GlyphPoints α where
  points := (points.map OutlinePoint.ofCurvePoint).toArray
  ends := (glyph.ends.map UInt16.toNat).toArray

end SimpleGlyph

/-- The points that a glyph stands for. -/
inductive Outlines.Flattens (outlines : Outlines) : GlyphId → GlyphPoints α → Prop
  | empty {id : GlyphId} (found : outlines.glyph? id = .ok none) : Flattens outlines id {}
  | simple {id : GlyphId} {glyph : SimpleGlyph} {points : List CurvePoint}
      (found : outlines.glyph? id = .ok (some (.simple glyph)))
      (decoded : glyph.points = .ok points) : Flattens outlines id (glyph.flat points)
  | composite {id : GlyphId} {glyph : CompositeGlyph} {parts : List (Part α)}
      (found : outlines.glyph? id = .ok (some (.composite glyph)))
      (decoded : glyph.components = parts.map fun part => .ok part.component)
      (anchored : ∀ part ∈ parts, part.component.anchor = .offset part.offset.x part.offset.y)
      (flattens : ∀ part ∈ parts, Flattens outlines part.component.glyph part.flat) :
      Flattens outlines id (.concat (parts.map Part.placed))

namespace Outlines

variable {outlines : Outlines}

theorem parts_unique {parts others : List (Part α)}
    (same : (parts.map fun part => (.ok part.component : Except ReadError Component)) =
      others.map fun part => .ok part.component)
    (anchored : ∀ part ∈ parts, part.component.anchor = .offset part.offset.x part.offset.y)
    (otherAnchored : ∀ part ∈ others, part.component.anchor = .offset part.offset.x part.offset.y)
    (unique : ∀ part ∈ parts, ∀ flat, outlines.Flattens part.component.glyph flat →
      part.flat = flat)
    (otherFlattens : ∀ part ∈ others, outlines.Flattens part.component.glyph part.flat) :
    parts = others := by
  induction parts generalizing others with
  | nil => exact (List.map_eq_nil_iff.mp same.symm).symm
  | cons part parts induction =>
      cases others with
      | nil => cases same
      | cons other others =>
          rw [List.forall_mem_cons] at anchored otherAnchored unique otherFlattens
          rw [List.map_cons, List.map_cons, List.cons.injEq, Except.ok.injEq] at same
          have rest := induction same.2 anchored.2 otherAnchored.2 unique.2 otherFlattens.2
          rcases part with ⟨component, offset, flat⟩
          rcases other with ⟨_, otherOffset, otherFlat⟩
          rcases same.1 with rfl
          have sameFlat : flat = otherFlat := unique.1 otherFlat otherFlattens.1
          have sameAnchor : Anchor.offset offset.x offset.y = .offset otherOffset.x otherOffset.y :=
            anchored.1.symm.trans otherAnchored.1
          rcases offset with ⟨x, y⟩
          rcases otherOffset with ⟨otherX, otherY⟩
          cases sameAnchor
          rw [sameFlat, rest]

/-- A glyph stands for one list of points only. -/
theorem Flattens.unique {id : GlyphId} {flat other : GlyphPoints α}
    (flattens : outlines.Flattens id flat) (otherFlattens : outlines.Flattens id other) :
    flat = other := by
  induction flattens generalizing other with
  | empty found =>
      cases otherFlattens with
      | empty => rfl
      | simple otherFound | composite otherFound =>
          rw [found] at otherFound
          cases otherFound
  | simple found decoded =>
      cases otherFlattens with
      | empty otherFound | composite otherFound =>
          rw [found] at otherFound
          cases otherFound
      | simple otherFound otherDecoded =>
          rw [found] at otherFound
          cases otherFound
          rw [decoded] at otherDecoded
          cases otherDecoded
          rfl
  | composite found decoded anchored _ induction =>
      cases otherFlattens with
      | empty otherFound | simple otherFound =>
          rw [found] at otherFound
          cases otherFound
      | composite otherFound otherDecoded otherAnchored otherFlattens =>
          rw [found] at otherFound
          cases otherFound
          have same := parts_unique (decoded.symm.trans otherDecoded) anchored otherAnchored
            (fun part member _ => induction part member) otherFlattens
          rw [same]

/-! Loading. -/

theorem ok_of_liftRead {β : Type} {id : GlyphId} {result : Except ReadError β} {value : β}
    (lifted : liftRead id result = .ok value) : result = .ok value := by
  cases result with
  | error error => cases lifted
  | ok found =>
      cases lifted
      rfl

theorem image_of_place {component : Component} {id : GlyphId} {place : Point α → Point α}
    (placed : component.place id = .ok place) :
    ∃ offset : Point Int16, component.anchor = .offset offset.x offset.y ∧
      ∀ flat, place = Part.image ⟨component, offset, flat⟩ := by
  simp only [Component.place] at placed
  split at placed
  · next x y anchored =>
      cases placed
      exact ⟨⟨x, y⟩, anchored, fun _ => rfl⟩
  · cases placed

theorem appendList_eq_append_toArray {β : Type} (array : Array β) (list : List β) :
    array.appendList list = array ++ list.toArray := by
  apply Array.ext'
  rw [Array.appendList_eq_append, Array.toList_appendList, Array.toList_append]

theorem appendSimple_ok {id : GlyphId} {glyph : SimpleGlyph} {loaded out : GlyphPoints α}
    (appended : appendSimple id glyph loaded = .ok out) :
    ∃ points, glyph.points = .ok points ∧ out = loaded ++ glyph.flat points := by
  simp only [appendSimple] at appended
  split at appended
  · cases appended
  · rcases exists_ok_of_bind appended with ⟨points, decoded, equal⟩
    cases equal
    refine ⟨points, ok_of_liftRead decoded, ?_⟩
    rw [GlyphPoints.append_eq, SimpleGlyph.flat, List.map_toArray, List.map_map,
      appendList_eq_append_toArray, appendList_eq_append_toArray]
    rfl

theorem hasAscendingEnds_of_appendSimple {id : GlyphId} {glyph : SimpleGlyph}
    {loaded out : GlyphPoints α} (appended : appendSimple id glyph loaded = .ok out) :
    glyph.hasAscendingEnds = true := by
  cases ascending : glyph.hasAscendingEnds with
  | true => rfl
  | false =>
      rw [appendSimple, ascending] at appended
      cases appended

theorem appendComponent_ok
    {append : GlyphId → GlyphPoints α → Except OutlineFault (GlyphPoints α)} {id : GlyphId}
    {loaded out : GlyphPoints α} {component : Except ReadError Component}
    (flattens : ∀ id loaded out, append id loaded = .ok out →
      ∃ flat, outlines.Flattens id flat ∧ out = loaded ++ flat)
    (appended : appendComponent append id loaded component = .ok out) :
    ∃ part : Part α, component = .ok part.component ∧
      part.component.anchor = .offset part.offset.x part.offset.y ∧
        outlines.Flattens part.component.glyph part.flat ∧ out = loaded ++ part.placed := by
  rcases exists_ok_of_bind appended with ⟨found, lifted, appended⟩
  rcases exists_ok_of_bind appended with ⟨place, placed, appended⟩
  rcases exists_ok_of_bind appended with ⟨whole, inner, equal⟩
  rcases image_of_place placed with ⟨offset, anchored, isImage⟩
  rcases flattens _ _ _ inner with ⟨flat, innerFlattens, rfl⟩
  cases equal
  refine ⟨⟨found, offset, flat⟩, ok_of_liftRead lifted, anchored, innerFlattens, ?_⟩
  rw [GlyphPoints.placeFrom_append, isImage flat]
  rfl

theorem foldlM_appendComponent_ok
    {append : GlyphId → GlyphPoints α → Except OutlineFault (GlyphPoints α)} {id : GlyphId}
    {components : List (Except ReadError Component)} {loaded out : GlyphPoints α}
    (flattens : ∀ id loaded out, append id loaded = .ok out →
      ∃ flat, outlines.Flattens id flat ∧ out = loaded ++ flat)
    (appended : components.foldlM (appendComponent append id) loaded = .ok out) :
    ∃ parts : List (Part α), components = parts.map (fun part => .ok part.component) ∧
      (∀ part ∈ parts, part.component.anchor = .offset part.offset.x part.offset.y) ∧
        (∀ part ∈ parts, outlines.Flattens part.component.glyph part.flat) ∧
          out = loaded ++ .concat (parts.map Part.placed) := by
  induction components generalizing loaded with
  | nil =>
      cases appended
      exact ⟨[], rfl, nofun, nofun, (GlyphPoints.append_empty _).symm⟩
  | cons component components induction =>
      rw [List.foldlM_cons] at appended
      rcases exists_ok_of_bind appended with ⟨middle, first, rest⟩
      rcases appendComponent_ok flattens first with ⟨part, rfl, anchored, partFlattens, rfl⟩
      rcases induction rest with ⟨parts, rfl, othersAnchored, othersFlatten, rfl⟩
      refine ⟨part :: parts, rfl, List.forall_mem_cons.mpr ⟨anchored, othersAnchored⟩,
        List.forall_mem_cons.mpr ⟨partFlattens, othersFlatten⟩, ?_⟩
      rw [GlyphPoints.append_assoc]
      rfl

theorem append_ok {levels : Nat} {id : GlyphId} {loaded out : GlyphPoints α}
    (appended : outlines.append levels id loaded = .ok out) :
    ∃ flat, outlines.Flattens id flat ∧ out = loaded ++ flat := by
  induction levels generalizing id loaded out with
  | zero => cases appended
  | succ levels induction =>
      rcases exists_ok_of_bind appended with ⟨found, read, appended⟩
      match found, read with
      | none, read =>
          cases appended
          exact ⟨{}, .empty read, (GlyphPoints.append_empty loaded).symm⟩
      | some (.simple glyph), read =>
          rcases appendSimple_ok appended with ⟨points, decoded, equal⟩
          exact ⟨_, .simple read decoded, equal⟩
      | some (.composite glyph), read =>
          rcases foldlM_appendComponent_ok (fun _ _ _ => induction) appended with
            ⟨parts, decoded, anchored, flattens, equal⟩
          exact ⟨_, .composite read decoded anchored flattens, equal⟩

/-- Loading a glyph adds the points that it stands for, behind those that are already there and
without a change to them. -/
theorem append_flattens {levels : Nat} {id : GlyphId} {loaded out : GlyphPoints α}
    (appended : outlines.append levels id loaded = .ok out) :
    ∃ flat, (∀ other, outlines.Flattens id other ↔ other = flat) ∧
      out.points = loaded.points ++ flat.points ∧
        out.ends = loaded.ends ++ flat.ends.map fun last => loaded.points.size + last := by
  rcases append_ok appended with ⟨flat, flattens, rfl⟩
  refine ⟨flat, fun other => ⟨fun otherFlattens => otherFlattens.unique flattens, ?_⟩, rfl, rfl⟩
  rintro rfl
  exact flattens

/-- Behind a point and its contour, a glyph adds the point of its component, moved. -/
theorem append_flattens_component :
    ∃ flat : GlyphPoints Rat,
      (∀ other, Flattens { locations := ⟨.short, [0, 16, 32]⟩, glyphs := [
        255, 255, 0, 0, 0, 0, 0, 0, 0, 0, 0, 2, 0, 1, 1, 0,
        0, 1, 0, 0, 0, 0, 0, 0, 0, 0, 0, 0, 0, 0, 49, 0] } ⟨0⟩ other ↔ other = flat) ∧
      #[⟨⟨7, 7⟩, true⟩, ⟨⟨1, 0⟩, true⟩] = #[⟨⟨7, 7⟩, true⟩] ++ flat.points ∧
        #[0, 1] = #[0] ++ flat.ends.map fun last => 1 + last := by
  have appended : append { locations := ⟨.short, [0, 16, 32]⟩, glyphs := [
      255, 255, 0, 0, 0, 0, 0, 0, 0, 0, 0, 2, 0, 1, 1, 0,
      0, 1, 0, 0, 0, 0, 0, 0, 0, 0, 0, 0, 0, 0, 49, 0] } 2 ⟨0⟩
      (⟨#[⟨⟨7, 7⟩, true⟩], #[0]⟩ : GlyphPoints Rat) =
      .ok ⟨#[⟨⟨7, 7⟩, true⟩, ⟨⟨1, 0⟩, true⟩], #[0, 1]⟩ := by
    with_unfolding_all rfl
  exact append_flattens appended

/-- A glyph is loaded as the points that it stands for. -/
theorem points_flattens {id : GlyphId} {out : GlyphPoints α} (loaded : outlines.points id = .ok out) :
    outlines.Flattens id out := by
  rcases append_ok loaded with ⟨flat, flattens, rfl⟩
  rwa [GlyphPoints.empty_append]

end Outlines

end Letterform.TrueType
