import Letterform.Proofs.Outline.FloatBounds
import Letterform.Proofs.Session.Filters
import Letterform.Sample.TrueTypeFont

/-!
The extents of glyphs. The width and the height of a box are subtracted in 32 bits, and a glyph
for which one of them does not fit is not made at all. An outline that stays near the origin always
fits, but components that are scaled again and again can make one that is too large.
-/

namespace Letterform

/-! Differences. -/

/-- A difference wraps around at most once. -/
theorem toInt_sub_of_le {low high : Int32} (ordered : low.toInt ≤ high.toInt) :
    (high - low).toInt =
      if high.toInt - low.toInt < 2 ^ 31 then high.toInt - low.toInt
      else high.toInt - low.toInt - 2 ^ 32 := by
  have above := low.le_toInt
  have below := high.toInt_lt
  rw [Int32.toInt_sub, Int.bmod_def]
  omega

theorem difference32?_of_le {low high : Int32} (ordered : low.toInt ≤ high.toInt) :
    (difference32? high low).map Int32.toInt =
      if high.toInt - low.toInt < 2 ^ 31 then some (high.toInt - low.toInt) else none := by
  have wrapped := toInt_sub_of_le ordered
  rw [difference32?]
  by_cases fits : high.toInt - low.toInt < 2 ^ 31
  · rw [if_pos fits] at wrapped ⊢
    rw [if_pos wrapped, Option.map_some, wrapped]
  · rw [if_neg fits] at wrapped ⊢
    have different : (high - low).toInt ≠ high.toInt - low.toInt := by omega
    rw [if_neg different, Option.map_none]

def Box.Fits (box : Box Int) : Prop := box.width < 2 ^ 31 ∧ box.height < 2 ^ 31

instance (box : Box Int) : Decidable box.Fits :=
  inferInstanceAs (Decidable (box.width < 2 ^ 31 ∧ box.height < 2 ^ 31))

namespace Outline

variable (outline : Outline Float)

def box : Box Int := outline.bounds.map Int32.toInt

theorem box_ordered : 0 ≤ outline.box.width ∧ 0 ≤ outline.box.height :=
  ⟨Int.sub_nonneg.mpr outline.bounds_ordered.1, Int.sub_nonneg.mpr outline.bounds_ordered.2⟩

theorem width32?_bounds : outline.bounds.width32?.map Int32.toInt =
    if outline.box.width < 2 ^ 31 then some outline.box.width else none :=
  difference32?_of_le outline.bounds_ordered.1

theorem height32?_bounds : outline.bounds.height32?.map Int32.toInt =
    if outline.box.height < 2 ^ 31 then some outline.box.height else none :=
  difference32?_of_le outline.bounds_ordered.2

end Outline

/-! Near outlines. -/

/-- How far out a side may be so that the sides on both ends are less than 31 bits apart. -/
def Side.nearLimit : Side → Int
  | .left | .bottom => -2 ^ 30
  | .right | .top => 2 ^ 30 - 1

def Point.IsNear (point : Point Float) : Prop :=
  ∀ side : Side, side.Reaches (.ofInt side.nearLimit) (side.ofPoint point)

theorem Side.number_nearLimit (side : Side) :
    (FloatValue.ofFloat (.ofInt side.nearLimit)).number = side.nearLimit := by
  cases side <;> decide +kernel

theorem Side.saturate32_nearLimit (side : Side) :
    (saturate32 side.nearLimit).toInt = side.nearLimit := by
  cases side <;> rfl

def Outline.IsNear (outline : Outline Float) : Prop :=
  ∀ sample ∈ outline.samples .origin, sample.IsNear

theorem Outline.IsNear.nearLimit_reaches_bounds {outline : Outline Float} (near : outline.IsNear)
    (side : Side) : side.Reaches side.nearLimit (side.ofBox outline.bounds).toInt := by
  by_cases drawn : outline = []
  · rw [drawn, bounds_nil]
    cases side with
    | left | bottom => exact (by decide : (-2 ^ 30 : Int) ≤ 0)
    | right | top => exact (by decide : (0 : Int) ≤ 2 ^ 30 - 1)
  · rw [← side.saturate32_nearLimit]
    refine reaches_bounds side drawn fun sample sampled => ?_
    rw [← side.number_nearLimit]
    exact Side.reaches_number (near sample sampled side)

theorem Outline.IsNear.fits {outline : Outline Float} (near : outline.IsNear) :
    outline.box.Fits := by
  have left : -2 ^ 30 ≤ outline.bounds.xMin.toInt := near.nearLimit_reaches_bounds .left
  have right : outline.bounds.xMax.toInt ≤ 2 ^ 30 - 1 := near.nearLimit_reaches_bounds .right
  have bottom : -2 ^ 30 ≤ outline.bounds.yMin.toInt := near.nearLimit_reaches_bounds .bottom
  have top : outline.bounds.yMax.toInt ≤ 2 ^ 30 - 1 := near.nearLimit_reaches_bounds .top
  constructor
  · show outline.bounds.xMax.toInt - outline.bounds.xMin.toInt < 2 ^ 31
    omega
  · show outline.bounds.yMax.toInt - outline.bounds.yMin.toInt < 2 ^ 31
    omega

/-! Glyphs. -/

namespace GlyphShape

variable {shape : GlyphShape}

def trueExtent (shape : GlyphShape) : GlyphExtent :=
  let leftBearing := shape.leftBearing.getD shape.outline.bounds.xMin.toFloat
  { leftBearing
    rightBearing := shape.advance - (leftBearing + .ofInt shape.outline.box.width)
    advance := shape.advance
    height := .ofInt shape.outline.box.height }

theorem extent?_of_fits (fits : shape.outline.box.Fits) :
    shape.extent? = some shape.trueExtent := by
  have width := shape.outline.width32?_bounds
  have height := shape.outline.height32?_bounds
  rw [if_pos fits.1] at width
  rw [if_pos fits.2] at height
  rcases Option.map_eq_some_iff.mp width with ⟨wide, subtracted, isWidth⟩
  rcases Option.map_eq_some_iff.mp height with ⟨high, subtractedToo, isHeight⟩
  rw [extent?, GlyphExtent.ofBounds?, subtracted, subtractedToo, trueExtent, ← isWidth, ← isHeight]
  rfl

theorem extent?_of_not_fits (tooLarge : ¬shape.outline.box.Fits) : shape.extent? = none := by
  rw [extent?, GlyphExtent.ofBounds?]
  by_cases fits : shape.outline.box.width < 2 ^ 31
  · have height := shape.outline.height32?_bounds
    rw [if_neg fun alsoFits => tooLarge ⟨fits, alsoFits⟩] at height
    rw [Option.map_eq_none_iff.mp height]
    cases shape.outline.bounds.width32? with
    | none => rfl
    | some width => rfl
  · have width := shape.outline.width32?_bounds
    rw [if_neg fits] at width
    rw [Option.map_eq_none_iff.mp width]
    rfl

end GlyphShape

/-! Faults other than an overflow. -/

def NoOverflow {α : Type} (found : Except FetchFault α) : Prop := found ≠ .error .overflow

namespace NoOverflow

theorem bind {α β : Type} {first : Except FetchFault α} {next : α → Except FetchFault β}
    (never : NoOverflow first) (thenNever : ∀ value, NoOverflow (next value)) :
    NoOverflow (first >>= next) := by
  cases first with
  | error fault => exact fun overflow => never (congrArg Except.error (Except.error.inj overflow))
  | ok value => exact thenNever value

theorem mapError {ε α : Type} {inject : ε → FetchFault} (others : ∀ cause, inject cause ≠ .overflow)
    (found : Except ε α) : NoOverflow (found.mapError inject) := by
  cases found with
  | error cause => exact fun overflow => others cause (Except.error.inj overflow)
  | ok value => exact fun overflow => by cases overflow

theorem ok {α : Type} (value : α) : NoOverflow (.ok value) := fun overflow => by cases overflow

end NoOverflow

namespace GlyphSource

theorem noOverflow_ofFile (file : FontFile) (settings : Settings) :
    NoOverflow (OutlineSource.ofFile file settings) := by
  rw [OutlineSource.ofFile]
  split
  · exact .bind (.mapError (fun _ => by simp) _) fun _ => .ok _
  · split
    · exact .bind (.mapError (fun _ => by simp) _) fun _ => .ok _
    · exact fun overflow => by cases overflow

theorem noOverflow_ofBytes (bytes : Bytes) (name : String) (settings : Settings) :
    NoOverflow (ofBytes bytes name settings) :=
  .bind (.mapError (fun _ => by simp) _) fun file =>
    .bind (noOverflow_ofFile file settings) fun _ => .ok _

theorem noOverflow_shape (source : GlyphSource) (glyph : GlyphId) :
    NoOverflow (source.shape glyph) := by
  rw [shape]
  split
  · exact .bind (.mapError (fun _ => by simp) _) fun _ => .ok _
  · refine .bind (.mapError (fun _ => by simp) _) fun isMark => ?_
    cases isMark with
    | true => exact .ok none
    | false => exact .bind (.mapError (fun _ => by simp) _) fun _ => .ok _

variable {source : GlyphSource} {character : Char} {glyph : GlyphId} {shape : GlyphShape}

theorem fetch_of_shape (mapped : source.glyphId? character = some glyph)
    (shaped : source.shape glyph = .ok (some shape)) :
    source.fetch character = (source.assemble character glyph shape).map fun made =>
      if source.isFiller made then none else some made := by
  rw [fetch_of_glyphId mapped, load, decode, shaped]
  simp only [bind, Except.bind]
  cases source.assemble character glyph shape with
  | error fault => rfl
  | ok made =>
      apply congrArg Except.ok
      cases isFiller : source.isFiller made with
      | true => simp [Option.filter, isFiller]
      | false => simp [Option.filter, isFiller]

theorem assemble_of_extent {extent : GlyphExtent} (measured : shape.extent? = some extent) :
    ∃ made, source.assemble character glyph shape = .ok made ∧ made.Shows glyph shape := by
  have assembled : ∃ made, source.assemble character glyph shape = .ok made := by
    rw [assemble, measured]
    exact ⟨_, rfl⟩
  rcases assembled with ⟨made, assembled⟩
  exact ⟨made, assembled, shows_of_assemble assembled⟩

theorem assemble_of_none (unmeasured : shape.extent? = none) :
    source.assemble character glyph shape = .error .overflow := by
  rw [assemble, unmeasured]

theorem exists_shape_of_overflow (overflow : source.fetch character = .error .overflow) :
    ∃ glyph shape, source.glyphId? character = some glyph ∧
      source.shape glyph = .ok (some shape) ∧ shape.extent? = none := by
  cases mapped : source.glyphId? character with
  | none =>
      rw [fetch_of_none mapped] at overflow
      cases overflow
  | some glyph =>
      cases shaped : source.shape glyph with
      | error fault =>
          rw [fetch_of_glyphId mapped, load, decode, shaped] at overflow
          cases overflow
          exact absurd shaped (noOverflow_shape source glyph)
      | ok found =>
          cases found with
          | none =>
              rw [fetch_of_glyphId mapped, load, decode, shaped] at overflow
              cases overflow
          | some shape =>
              refine ⟨glyph, shape, rfl, shaped, ?_⟩
              rw [fetch_of_shape mapped shaped] at overflow
              cases measured : shape.extent? with
              | none => rfl
              | some extent =>
                  rcases assemble_of_extent measured with ⟨made, assembled, -⟩
                  rw [assembled] at overflow
                  cases overflow

end GlyphSource

namespace Session

/-- The shape that is measured when a character is fetched, if there is one. -/
def shapeFrom (bytes : Bytes) (name : String) (settings : Settings) (character : Char) :
    Except FetchFault (Option GlyphShape) := do
  let source ← GlyphSource.ofBytes bytes name settings
  match source.glyphId? character with
  | some glyph => source.shape glyph
  | none => return none

variable {bytes : Bytes} {name : String} {settings : Settings} {character : Char}
  {shape : GlyphShape}

theorem exists_source_of_shapeFrom
    (shaped : shapeFrom bytes name settings character = .ok (some shape)) :
    ∃ source glyph, GlyphSource.ofBytes bytes name settings = .ok source ∧
      source.glyphId? character = some glyph ∧ source.shape glyph = .ok (some shape) := by
  rcases exists_ok_of_bind shaped with ⟨source, opened, shaped⟩
  cases mapped : source.glyphId? character with
  | none =>
      rw [mapped] at shaped
      cases shaped
  | some glyph =>
      rw [mapped] at shaped
      exact ⟨source, glyph, opened, mapped, shaped⟩

/-- A fetch overflows if the shape does not fit, and for no other reason. -/
theorem fetchFrom_overflow_iff (before : List Request) :
    fetchFrom bytes name settings before character = .error .overflow ↔
      ∃ shape, shapeFrom bytes name settings character = .ok (some shape) ∧
        ¬shape.outline.box.Fits := by
  rw [fetchFrom_eq]
  constructor
  · intro overflow
    cases opened : GlyphSource.ofBytes bytes name settings with
    | error fault =>
        rw [opened] at overflow
        cases overflow
        exact absurd opened (GlyphSource.noOverflow_ofBytes bytes name settings)
    | ok source =>
        rw [opened] at overflow
        rcases GlyphSource.exists_shape_of_overflow overflow with
          ⟨glyph, shape, mapped, shaped, unmeasured⟩
        refine ⟨shape, ?_, ?_⟩
        · rw [shapeFrom, opened]
          simp only [bind, Except.bind, mapped, shaped]
        · intro fits
          rw [GlyphShape.extent?_of_fits fits] at unmeasured
          cases unmeasured
  · rintro ⟨shape, shaped, tooLarge⟩
    rcases exists_source_of_shapeFrom shaped with ⟨source, glyph, opened, mapped, shaped⟩
    have unmeasured := GlyphShape.extent?_of_not_fits tooLarge
    rw [opened]
    show source.fetch character = _
    rw [GlyphSource.fetch_of_shape mapped shaped, GlyphSource.assemble_of_none unmeasured]
    rfl

theorem exists_glyph_of_fits (before : List Request)
    (shaped : shapeFrom bytes name settings character = .ok (some shape))
    (fits : shape.outline.box.Fits) :
    ∃ glyph, fetchFrom bytes name settings before character =
        .ok (if settings.fillerHash = some glyph.hash then none else some glyph) ∧
      glyph.bounds = shape.outline.bounds ∧ glyph.extent = shape.trueExtent := by
  rcases exists_source_of_shapeFrom shaped with ⟨source, identifier, opened, mapped, shaped⟩
  have measured := GlyphShape.extent?_of_fits fits
  have made : ∃ glyph, source.assemble character identifier shape = .ok glyph ∧
      glyph.Shows identifier shape := GlyphSource.assemble_of_extent measured
  rcases made with ⟨glyph, assembled, shows⟩
  refine ⟨glyph, ?_, shows.bounds, Option.some.inj (shows.extent.symm.trans measured)⟩
  rw [fetchFrom_eq, opened]
  show source.fetch character = _
  rw [GlyphSource.fetch_of_shape mapped shaped, assembled]
  simp [Except.map, GlyphSource.isFiller, GlyphSource.settings_of_ofBytes opened]

/-- The subtractions give the true width and the true height of the box, or overflow if one of them
needs more than 31 bits, and then the fetch overflows too. Otherwise the glyph has the true extent,
unless it is hidden as a filler. An outline that stays near the origin never overflows, whatever it
is put together from. -/
theorem fetchFrom_extents (shaped : shapeFrom bytes name settings character = .ok (some shape))
    (before : List Request) :
    let bounds := shape.outline.bounds
    let box := bounds.map Int32.toInt
    let fetched := fetchFrom bytes name settings before character
    0 ≤ box.width ∧ 0 ≤ box.height ∧
      bounds.width32?.map Int32.toInt = (if box.width < 2 ^ 31 then some box.width else none) ∧
      bounds.height32?.map Int32.toInt = (if box.height < 2 ^ 31 then some box.height else none) ∧
      (fetched = .error .overflow ↔ ¬(box.width < 2 ^ 31 ∧ box.height < 2 ^ 31)) ∧
      (box.width < 2 ^ 31 ∧ box.height < 2 ^ 31 → ∃ glyph,
        fetched = .ok (if settings.fillerHash = some glyph.hash then none else some glyph) ∧
        glyph.bounds = bounds ∧ glyph.extent.advance = shape.advance ∧
        glyph.extent.rightBearing =
          shape.advance - (glyph.extent.leftBearing + .ofInt box.width) ∧
        glyph.extent.height = .ofInt box.height) ∧
      (shape.outline.IsNear → box.width < 2 ^ 31 ∧ box.height < 2 ^ 31) := by
  intro bounds box fetched
  have ⟨width, height⟩ := shape.outline.box_ordered
  refine ⟨width, height, shape.outline.width32?_bounds, shape.outline.height32?_bounds,
    ?overflow, ?measured, fun near => near.fits⟩
  case overflow =>
    constructor
    · intro overflow
      rcases (fetchFrom_overflow_iff before).mp overflow with ⟨other, sameShape, tooLarge⟩
      cases shaped.symm.trans sameShape
      exact tooLarge
    · intro tooLarge
      exact (fetchFrom_overflow_iff before).mpr ⟨shape, shaped, tooLarge⟩
  case measured =>
    intro fits
    rcases exists_glyph_of_fits before shaped fits with ⟨glyph, found, sameBounds, extent⟩
    refine ⟨glyph, found, sameBounds, ?_⟩
    rw [extent]
    exact ⟨rfl, rfl, rfl⟩

theorem exists_value_of_map {α β : Type} {found : Except FetchFault (Option α)} {read : α → β}
    {value : β} (shown : found.toOption.join.map read = some value) :
    ∃ inner, found = .ok (some inner) ∧ read inner = value := by
  rcases Option.map_eq_some_iff.mp shown with ⟨inner, joined, equal⟩
  refine ⟨inner, ?_, equal⟩
  cases found with
  | error fault => cases joined
  | ok found => exact congrArg Except.ok joined

theorem fetchFrom_extents_square :
    ∃ shape, shapeFrom (Sample.trueTypeFont .short) "Sample" {} 'A' = .ok (some shape) ∧
      shape.outline.bounds.width32?.map Int32.toInt = some 500 ∧
      shape.outline.bounds.height32?.map Int32.toInt = some 700 ∧
      ∃ glyph, fetchFrom (Sample.trueTypeFont .short) "Sample" {} [] 'A' = .ok (some glyph) ∧
        glyph.bounds = ⟨100, 0, 600, 700⟩ ∧ glyph.extent.height = .ofInt 700 := by
  have shown : (shapeFrom (Sample.trueTypeFont .short) "Sample" {} 'A').toOption.join.map
      (fun shape => shape.outline.bounds) = some ⟨100, 0, 600, 700⟩ := by
    decide +kernel
  rcases exists_value_of_map shown with ⟨shape, shaped, bounds⟩
  rcases fetchFrom_extents shaped [] with ⟨-, -, width, height, -, measured, -⟩
  rw [bounds] at width height measured
  rcases measured (by decide) with ⟨glyph, fetched, sameBounds, -, -, sameHeight⟩
  refine ⟨shape, shaped, ?_, ?_, glyph, fetched, sameBounds, sameHeight⟩
  · rw [bounds]
    exact width
  · rw [bounds]
    exact height

end Session

/-! Glyphs that are too large. -/

namespace Sample

open TrueType

def field : List StoredPoint :=
  [⟨-16000, -16000, true⟩, ⟨16000, -16000, true⟩, ⟨16000, 16000, true⟩, ⟨-16000, 16000, true⟩]

/-- The missing glyph, then glyphs that each are the next one turned around at twice its size,
and a square as the last. -/
def turnedGlyphs : List Bytes :=
  [] :: (List.range' 2 17).map (fun (next : Nat) => encodeComponents ⟨0, 0, 0, 0⟩
    [{ glyph := ⟨.ofNat next⟩, first := 0, second := 0, scale := .uniform F2Dot14.minimum }]) ++
    [encodeContours [field]]

def turnedFont : Bytes :=
  let header : FontHeader := { unitsPerEm, locationFormat := LocationFormat.short.number }
  (TableMap.ofList [
    (.head, header.encode),
    (.maxp, (MaximumProfile.ofGlyphCount (.ofNat turnedGlyphs.length) true).encode),
    (.cmap, Cmap.encode [⟨Cmap.windowsPlatform, 1,
      Cmap.encodeSegments [{ start := 0x41, stop := 0x41, delta := -0x40 }]⟩]),
    (.loca, Locations.encode .short turnedGlyphs),
    (.glyf, turnedGlyphs.flatten)]).encode FontFile.trueTypeVersion

end Sample

namespace Session

/-- Doubled 17 times, a square has sides of almost two to the 32nd power. -/
theorem fetchFrom_turned :
    ∃ shape, shapeFrom Sample.turnedFont "Sample" {} 'A' = .ok (some shape) ∧
      shape.outline.bounds = ⟨-2097152000, -2097152000, 2097152000, 2097152000⟩ ∧
      (shape.outline.bounds.map Int32.toInt).width = 4194304000 ∧
      shape.outline.bounds.width32? = none ∧ shape.outline.bounds.height32? = none ∧
      fetchFrom Sample.turnedFont "Sample" {} [] 'A' = .error .overflow := by
  have shown : (shapeFrom Sample.turnedFont "Sample" {} 'A').toOption.join.map
      (fun shape => shape.outline.bounds) =
        some ⟨-2097152000, -2097152000, 2097152000, 2097152000⟩ := by
    decide +kernel
  rcases exists_value_of_map shown with ⟨shape, shaped, bounds⟩
  have tooLarge : ¬shape.outline.box.Fits := by
    rw [Outline.box, bounds]
    decide
  have overflow := (fetchFrom_overflow_iff []).mpr ⟨shape, shaped, tooLarge⟩
  refine ⟨shape, shaped, bounds, ?_, ?_, ?_, overflow⟩
  all_goals
    rw [bounds]
    decide

end Session

end Letterform
