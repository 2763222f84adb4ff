import Letterform.Proofs.TrueType.Flattening
import Letterform.Proofs.TrueType.PackedPoints

/-!
The contours of loaded glyphs. The first contour starts with the first point, every other one
behind the contour before it, and the last contour ends with the last point. The ends of a
simple glyph are checked for this when it is loaded; glyphs that are joined or put in place
keep it.
-/

namespace Letterform.TrueType

/-! Ends that divide points. -/

/-- The ends divide the points from `start` up to `stop` into contours that are not empty. -/
inductive Divides : (start : Nat) → (ends : List Nat) → (stop : Nat) → Prop
  | done (position : Nat) : Divides position [] position
  | contour {start last stop : Nat} {ends : List Nat} (nonempty : start ≤ last)
      (others : Divides (last + 1) ends stop) : Divides start (last :: ends) stop

namespace Divides

variable {start middle stop : Nat} {ends more : List Nat}

theorem le (divides : Divides start ends stop) : start ≤ stop := by
  induction divides with
  | done position => exact Nat.le_refl position
  | contour nonempty _ induction => omega

theorem append (first : Divides start ends middle) (second : Divides middle more stop) :
    Divides start (ends ++ more) stop := by
  induction first with
  | done => exact second
  | contour nonempty _ induction => exact .contour nonempty (induction second)

theorem shift (divides : Divides start ends stop) (count : Nat) :
    Divides (count + start) (ends.map (count + ·)) (count + stop) := by
  induction divides with
  | done position => exact .done _
  | contour nonempty _ induction => exact .contour (Nat.add_le_add_left nonempty count) induction

theorem le_of_mem (divides : Divides start ends stop) {last : Nat} (member : last ∈ ends) :
    start ≤ last := by
  induction divides with
  | done => cases member
  | contour nonempty _ induction =>
      rcases List.mem_cons.mp member with rfl | member
      · exact nonempty
      · have behind := induction member
        omega

theorem ascending (divides : Divides start ends stop) : ends.Pairwise (· < ·) := by
  induction divides with
  | done => exact .nil
  | contour _ others induction =>
      exact List.pairwise_cons.mpr ⟨fun _ member => others.le_of_mem member, induction⟩

theorem getLast? (divides : Divides start ends stop) {last : Nat}
    (isLast : ends.getLast? = some last) : last + 1 = stop := by
  induction divides with
  | done => cases isLast
  | @contour _ first _ ends _ others induction =>
      cases others with
      | done =>
          cases isLast
          rfl
      | contour nonempty others => exact induction isLast

theorem eq_nil_iff (divides : Divides start ends stop) : ends = [] ↔ start = stop := by
  cases divides with
  | done => exact iff_of_true rfl rfl
  | contour nonempty others =>
      have bound := others.le
      exact iff_of_false (List.cons_ne_nil _ _) (by omega)

/-! The contours that the ends give. -/

variable {α : Type} {points : Array (OutlinePoint α)}

theorem contoursFrom_cons {last : Nat} (nonempty : start ≤ last)
    (others : Divides (last + 1) ends points.size) :
    GlyphPoints.contoursFrom points start (last :: ends) =
      (points.extract start (last + 1)).toList :: GlyphPoints.contoursFrom points (last + 1) ends := by
  have within := others.le
  rw [GlyphPoints.contoursFrom, if_pos ⟨by omega, within⟩]
  rfl

theorem length_extract {last : Nat} (within : last + 1 ≤ points.size) :
    (points.extract start (last + 1)).toList.length = last + 1 - start := by
  rw [Array.length_toList, Array.size_extract, Nat.min_eq_left within]

theorem length_contoursFrom (divides : Divides start ends points.size) :
    (GlyphPoints.contoursFrom points start ends).length = ends.length := by
  generalize size : points.size = stop at divides
  induction divides with
  | done => rfl
  | contour nonempty others induction =>
      subst size
      rw [contoursFrom_cons nonempty others, List.length_cons, List.length_cons, induction rfl]

theorem nonempty_contoursFrom (divides : Divides start ends points.size) {contour : Contour α}
    (member : contour ∈ GlyphPoints.contoursFrom points start ends) : contour ≠ [] := by
  generalize size : points.size = stop at divides
  induction divides with
  | done => cases member
  | contour nonempty others induction =>
      subst size
      rw [contoursFrom_cons nonempty others] at member
      rcases List.mem_cons.mp member with rfl | member
      · apply List.ne_nil_of_length_pos
        rw [length_extract others.le]
        omega
      · exact induction member rfl

theorem length_take_contoursFrom (divides : Divides start ends points.size) {index last : Nat}
    (isEnd : ends[index]? = some last) :
    start + ((GlyphPoints.contoursFrom points start ends).take (index + 1)).flatten.length =
      last + 1 := by
  generalize size : points.size = stop at divides
  induction divides generalizing index with
  | done => cases isEnd
  | contour nonempty others induction =>
      subst size
      rw [contoursFrom_cons nonempty others, List.take_succ_cons, List.flatten_cons,
        List.length_append, length_extract others.le]
      cases index with
      | zero =>
          cases isEnd
          rw [List.take_zero, List.flatten_nil, List.length_nil]
          omega
      | succ index =>
          have behind := induction isEnd rfl
          omega

/-- Together the contours are all points from the start on. -/
theorem flatten_contoursFrom (divides : Divides start ends points.size) :
    (GlyphPoints.contoursFrom points start ends).flatten = points.toList.drop start := by
  generalize size : points.size = stop at divides
  induction divides with
  | done position =>
      rw [← size, ← Array.length_toList, List.drop_length]
      rfl
  | @contour start last stop ends nonempty others induction =>
      subst size
      have split : points.toList.drop start =
          (points.toList.drop start).take (last + 1 - start) ++ points.toList.drop (last + 1) := by
        have parts := List.take_append_drop (last + 1 - start) (points.toList.drop start)
        rw [List.drop_drop, show start + (last + 1 - start) = last + 1 by omega] at parts
        exact parts.symm
      rw [contoursFrom_cons nonempty others, List.flatten_cons, induction rfl, split,
        Array.toList_extract, List.extract_eq_take_drop]

end Divides

/-! Glyphs whose ends divide their points. -/

namespace SimpleGlyph

theorem length_points {glyph : SimpleGlyph} {points : List CurvePoint}
    (decoded : glyph.points = .ok points) : points.length = glyph.pointCount := by
  rcases (pointsDecoder_isExact _).decode_eq_ok_iff.mp decoded with ⟨_, _, _, reads⟩
  rcases pointsDecoder_reads_iff.mp reads with ⟨_, _, _, _, _, rfl⟩
  rw [List.length_map, List.length_range]

theorem divides_of_ascending {start : Nat} {first : UInt16} {ends : List UInt16}
    (nonempty : start ≤ first.toNat)
    (ascending : ((first :: ends).zip ends).all (fun (one, next) => one < next) = true) :
    Divides start ((first :: ends).map UInt16.toNat)
      (((first :: ends).getLast?.map fun last => last.toNat + 1).getD 0) := by
  induction ends generalizing start first with
  | nil => exact .contour nonempty (.done _)
  | cons second ends induction =>
      rw [List.zip_cons_cons, List.all_cons, Bool.and_eq_true, decide_eq_true_eq] at ascending
      have behind : first.toNat + 1 ≤ second.toNat := UInt16.lt_iff_toNat_lt.mp ascending.1
      rw [List.getLast?_cons_cons]
      exact .contour nonempty (induction behind ascending.2)

theorem divides_ends {glyph : SimpleGlyph} (ascending : glyph.hasAscendingEnds = true) :
    Divides 0 (glyph.ends.map UInt16.toNat) glyph.pointCount := by
  simp only [hasAscendingEnds] at ascending
  rw [pointCount]
  cases whole : glyph.ends with
  | nil => exact .done 0
  | cons first ends =>
      rw [whole] at ascending
      exact divides_of_ascending (Nat.zero_le _) ascending

end SimpleGlyph

namespace GlyphPoints

variable {α : Type}

def EndsDivide (glyph : GlyphPoints α) : Prop := Divides 0 glyph.ends.toList glyph.points.size

theorem EndsDivide.empty : ({} : GlyphPoints α).EndsDivide := .done 0

theorem EndsDivide.append {first second : GlyphPoints α} (firstDivides : first.EndsDivide)
    (secondDivides : second.EndsDivide) : (first ++ second).EndsDivide := by
  have shifted := secondDivides.shift first.points.size
  rw [EndsDivide, append_eq, Array.toList_append, Array.toList_map, Array.size_append]
  exact Divides.append firstDivides shifted

theorem size_placeRange (place : Point α → Point α) (count start : Nat)
    (points : Array (OutlinePoint α)) :
    (placeRange place count start points).size = points.size := by
  induction count generalizing start points with
  | zero => rfl
  | succ count induction => rw [placeRange, induction, Array.size_modify]

theorem EndsDivide.placeFrom {glyph : GlyphPoints α} (divides : glyph.EndsDivide)
    (place : Point α → Point α) (start : Nat) : (glyph.placeFrom place start).EndsDivide := by
  rw [EndsDivide, GlyphPoints.placeFrom, size_placeRange]
  exact divides

/-- The contours are all points in order, each point in one contour, and one contour for each
end. -/
structure IsDivided (glyph : GlyphPoints α) : Prop where
  -- Points and flags are one array here; for two that grow together see `size_flags_of_load`.
  flagged : (glyph.points.map OutlinePoint.position).size =
    (glyph.points.map OutlinePoint.isOnCurve).size
  ascending : glyph.ends.toList.Pairwise (· < ·)
  last : ∀ last ∈ glyph.ends.back?, last + 1 = glyph.points.size
  empty : glyph.ends = #[] ↔ glyph.points = #[]
  contourCount : glyph.contours.length = glyph.ends.size
  nonempty : ∀ contour ∈ glyph.contours, contour ≠ []
  /-- Up to the contour of an end there are the points up to that end. -/
  ends : ∀ index last, glyph.ends[index]? = some last →
    (glyph.contours.take (index + 1)).flatten.length = last + 1
  whole : glyph.contours.flatten = glyph.points.toList

theorem EndsDivide.isDivided {glyph : GlyphPoints α} (divides : glyph.EndsDivide) :
    glyph.IsDivided where
  flagged := by rw [Array.size_map, Array.size_map]
  ascending := divides.ascending
  last last isLast := by
    rw [Option.mem_def, ← Array.getLast?_toList] at isLast
    exact divides.getLast? isLast
  empty := by
    rw [← Array.toList_eq_nil_iff, divides.eq_nil_iff, eq_comm, Array.size_eq_zero_iff]
  contourCount := divides.length_contoursFrom
  nonempty contour member := divides.nonempty_contoursFrom member
  ends index last isEnd := by
    rw [← Array.getElem?_toList] at isEnd
    have reaches := divides.length_take_contoursFrom isEnd
    rwa [Nat.zero_add] at reaches
  whole := divides.flatten_contoursFrom

end GlyphPoints

/-! Loading. -/

namespace Outlines

variable {α : Type} [Coordinate α] {outlines : Outlines} {id : GlyphId}
  {loaded out : GlyphPoints α}

theorem appendSimple_endsDivide {glyph : SimpleGlyph} (divides : loaded.EndsDivide)
    (appended : appendSimple id glyph loaded = .ok out) : out.EndsDivide := by
  have ascending := hasAscendingEnds_of_appendSimple appended
  rcases appendSimple_ok appended with ⟨points, decoded, rfl⟩
  have flat : (glyph.flat points : GlyphPoints α).EndsDivide := by
    rw [GlyphPoints.EndsDivide, SimpleGlyph.flat, List.size_toArray, List.length_map,
      SimpleGlyph.length_points decoded]
    exact SimpleGlyph.divides_ends ascending
  exact divides.append flat

theorem foldlM_appendComponent_endsDivide
    {append : GlyphId → GlyphPoints α → Except OutlineFault (GlyphPoints α)}
    {components : List (Except ReadError Component)}
    (keeps : ∀ id loaded out, append id loaded = .ok out → loaded.EndsDivide → out.EndsDivide)
    (divides : loaded.EndsDivide)
    (appended : components.foldlM (appendComponent append id) loaded = .ok out) :
    out.EndsDivide := by
  induction components generalizing loaded with
  | nil =>
      cases appended
      exact divides
  | cons component components induction =>
      rw [List.foldlM_cons] at appended
      rcases exists_ok_of_bind appended with ⟨middle, first, rest⟩
      rcases exists_ok_of_bind first with ⟨found, _, first⟩
      rcases exists_ok_of_bind first with ⟨place, _, first⟩
      rcases exists_ok_of_bind first with ⟨whole, inner, equal⟩
      cases equal
      exact induction ((keeps _ _ _ inner divides).placeFrom place _) rest

/-- Loading a glyph behind points that are divided divides all of them. -/
theorem append_endsDivide {levels : Nat} (divides : loaded.EndsDivide)
    (appended : outlines.append levels id loaded = .ok out) : out.EndsDivide := by
  induction levels generalizing id loaded out with
  | zero => cases appended
  | succ levels induction =>
      rcases exists_ok_of_bind appended with ⟨found, _, appended⟩
      match found with
      | none =>
          cases appended
          exact divides
      | some (.simple glyph) => exact appendSimple_endsDivide divides appended
      | some (.composite glyph) =>
          exact foldlM_appendComponent_endsDivide
            (fun _ _ _ inner divides => induction divides inner) divides appended

/-- No point of a glyph is lost, and none is drawn twice. -/
theorem points_isDivided (appended : outlines.points id = .ok out) : out.IsDivided :=
  (append_endsDivide .empty appended).isDivided

/-- A component twice, with an empty one between them. -/
theorem points_isDivided_components :
    points { locations := ⟨.short, [0, 28, 44, 44]⟩, glyphs := [
      255, 255, 0, 0, 0, 0, 0, 0, 0, 0,
      0, 34, 0, 1, 1, 0, 0, 34, 0, 2, 0, 0, 0, 2, 0, 1, 5, 0,
      0, 1, 0, 0, 0, 0, 0, 0, 0, 0, 0, 0, 0, 0, 49, 0] } ⟨0⟩ =
        .ok (⟨#[⟨⟨1, 0⟩, true⟩, ⟨⟨5, 0⟩, true⟩], #[0, 1]⟩ : GlyphPoints Rat) ∧
      (⟨#[⟨⟨1, 0⟩, true⟩, ⟨⟨5, 0⟩, true⟩], #[0, 1]⟩ : GlyphPoints Rat).IsDivided := by
  refine (and_iff_left_of_imp points_isDivided).mpr ?_
  with_unfolding_all rfl

end Outlines

end Letterform.TrueType
