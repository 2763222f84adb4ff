import Letterform.Proofs.Session.Transparency

/-!
Filters against placeholders. A filter takes glyphs away and does nothing else: what it leaves is
what is fetched without any, fault for fault. That a glyph is looked at before it is decoded makes
no difference, since it cannot be decoded either if it cannot be read.
-/

namespace Letterform

namespace Settings

def unfiltered (settings : Settings) : Settings :=
  { settings with fillerHash := none, tinyThreshold := none }

end Settings

/-! Glyphs that cannot be read. -/

namespace TrueType.Outlines

variable {outlines : Outlines} {glyph : GlyphId} {fault : OutlineFault}

theorem isTiny_error {threshold : UInt16}
    (failed : outlines.isTiny glyph threshold = .error fault) :
    outlines.glyph? glyph = .error fault := by
  rw [isTiny] at failed
  cases read : outlines.glyph? glyph with
  | error other =>
      rw [read] at failed
      cases failed
      rfl
  | ok found =>
      rw [read] at failed
      cases found with
      | none => cases failed
      | some glyph => cases failed

theorem outline_error {α : Type} [Coordinate α] (unread : outlines.glyph? glyph = .error fault) :
    (outlines.outline glyph : Except OutlineFault (Outline α)) = .error fault := by
  have noPoints : (outlines.points glyph : Except OutlineFault (GlyphPoints α)) = .error fault := by
    rw [points, append, unread]
    rfl
  rw [outline, noPoints]
  rfl

end TrueType.Outlines

/-! What a font has for a character. -/

namespace GlyphSource

def unfiltered (source : GlyphSource) : GlyphSource :=
  { source with settings := source.settings.unfiltered }

/-- The font has TrueType outlines, there is a threshold, and the glyph of the character is tiny. -/
def HasMark (source : GlyphSource) (character : Char) : Prop :=
  ∃ outlines threshold glyph, source.outlines = .trueType outlines ∧
    source.settings.tinyThreshold = some threshold ∧ source.glyphId? character = some glyph ∧
    outlines.isTiny glyph threshold = .ok true

variable {source : GlyphSource} {character : Char} {glyph : GlyphId}

theorem shape_unfiltered_cff {font : Cff.Font} (isCff : source.outlines = .cff font) :
    source.shape glyph = source.unfiltered.shape glyph := by
  have same : source.unfiltered.outlines = .cff font := isCff
  simp only [shape, isCff, same]

theorem shape_of_isMark {outlines : TrueType.Outlines}
    (isTrueType : source.outlines = .trueType outlines)
    (isMark : source.isMark outlines glyph = .ok true) : source.shape glyph = .ok none := by
  simp only [shape, isTrueType, isMark]
  rfl

theorem shape_unfiltered_of_not_isMark {outlines : TrueType.Outlines}
    (isTrueType : source.outlines = .trueType outlines)
    (notMark : source.isMark outlines glyph = .ok false) :
    source.shape glyph = source.unfiltered.shape glyph := by
  have same : source.unfiltered.outlines = .trueType outlines := isTrueType
  simp only [shape, isTrueType, same, notMark]
  rfl

/-- The fault with which a glyph is looked at is that with which it is decoded. -/
theorem shape_unfiltered_of_isMark_error {outlines : TrueType.Outlines}
    {fault : TrueType.OutlineFault} (isTrueType : source.outlines = .trueType outlines)
    (failed : source.isMark outlines glyph = .error fault) :
    source.shape glyph = source.unfiltered.shape glyph := by
  have unread : outlines.glyph? glyph = .error fault := by
    rw [isMark] at failed
    split at failed
    · exact TrueType.Outlines.isTiny_error failed
    · cases failed
  have same : source.unfiltered.outlines = .trueType outlines := isTrueType
  simp only [shape, isTrueType, same, failed, TrueType.Outlines.outline_error unread]
  rfl

theorem shape_unfiltered (mapped : source.glyphId? character = some glyph)
    (notMark : ¬source.HasMark character) :
    source.shape glyph = source.unfiltered.shape glyph := by
  cases kind : source.outlines with
  | cff font => exact shape_unfiltered_cff kind
  | trueType outlines =>
      cases seen : source.isMark outlines glyph with
      | error fault => exact shape_unfiltered_of_isMark_error kind seen
      | ok isMark =>
          cases isMark with
          | false => exact shape_unfiltered_of_not_isMark kind seen
          | true =>
              rw [GlyphSource.isMark] at seen
              split at seen
              · next threshold given =>
                  exact absurd ⟨outlines, threshold, glyph, kind, given, mapped, seen⟩ notMark
              · cases seen

theorem decode_unfiltered (mapped : source.glyphId? character = some glyph)
    (notMark : ¬source.HasMark character) :
    source.decode character glyph = source.unfiltered.decode character glyph := by
  rw [decode, decode, shape_unfiltered mapped notMark]
  rfl

theorem load_unfiltered :
    source.unfiltered.load character glyph = source.unfiltered.decode character glyph := by
  rw [load]
  cases source.unfiltered.decode character glyph with
  | error fault => rfl
  | ok found =>
      cases found with
      | none => rfl
      | some glyph => rfl

/-! The glyph that is fetched. -/

theorem fetch_of_hasMark (hasMark : source.HasMark character) :
    source.fetch character = .ok none := by
  rcases hasMark with ⟨outlines, threshold, glyph, isTrueType, given, mapped, isTiny⟩
  have isMark : source.isMark outlines glyph = .ok true := by
    simp only [GlyphSource.isMark, given, isTiny]
  rw [fetch_of_glyphId mapped, load, decode, shape_of_isMark isTrueType isMark]
  rfl

/-- Of what is fetched without filters, only fillers are taken away. -/
theorem fetch_of_not_hasMark (notMark : ¬source.HasMark character) :
    source.fetch character = (source.unfiltered.fetch character).map fun found =>
      found.filter fun glyph => !source.isFiller glyph := by
  cases mapped : source.glyphId? character with
  | none =>
      have unmapped : source.unfiltered.glyphId? character = none := mapped
      rw [fetch_of_none mapped, fetch_of_none unmapped]
      rfl
  | some glyph =>
      have same : source.unfiltered.glyphId? character = some glyph := mapped
      rw [fetch_of_glyphId mapped, fetch_of_glyphId same, load_unfiltered, load,
        decode_unfiltered mapped notMark]
      rfl

theorem fetch_filtered (source : GlyphSource) (character : Char) :
    (source.HasMark character → source.fetch character = .ok none) ∧
      (∀ glyph, source.unfiltered.fetch character = .ok (some glyph) →
        source.settings.fillerHash = some glyph.hash → source.fetch character = .ok none) ∧
      (¬source.HasMark character →
        (∀ glyph, source.unfiltered.fetch character = .ok (some glyph) →
          source.settings.fillerHash ≠ some glyph.hash) →
        source.fetch character = source.unfiltered.fetch character) := by
  refine ⟨fetch_of_hasMark, ?_, ?_⟩
  · intro glyph shown isFiller
    by_cases hasMark : source.HasMark character
    · exact fetch_of_hasMark hasMark
    · rw [fetch_of_not_hasMark hasMark, shown]
      simp [Except.map, GlyphSource.isFiller, isFiller]
  · intro notMark notFiller
    rw [fetch_of_not_hasMark notMark]
    cases shown : source.unfiltered.fetch character with
    | error fault => rfl
    | ok found =>
        cases found with
        | none => rfl
        | some glyph =>
            have kept := notFiller glyph shown
            simp [Except.map, GlyphSource.isFiller, kept]

end GlyphSource

/-! Opening. -/

theorem GlyphSource.settings_of_ofBytes {bytes : Bytes} {name : String} {settings : Settings}
    {source : GlyphSource} (opened : ofBytes bytes name settings = .ok source) :
    source.settings = settings := by
  rcases exists_ok_of_bind opened with ⟨file, -, opened⟩
  rcases exists_ok_of_bind opened with ⟨outlines, -, equal⟩
  cases equal
  rfl

theorem GlyphSource.ofBytes_unfiltered (bytes : Bytes) (name : String) (settings : Settings) :
    ofBytes bytes name settings.unfiltered = (ofBytes bytes name settings).map unfiltered := by
  simp only [ofBytes]
  cases (FontFile.ofBytes bytes).mapError FetchFault.read with
  | error fault => rfl
  | ok file =>
      have same : OutlineSource.ofFile file settings.unfiltered =
          OutlineSource.ofFile file settings := rfl
      simp only [bind, Except.bind, same]
      cases OutlineSource.ofFile file settings with
      | error fault => rfl
      | ok outlines => rfl

namespace Session

/-- What is fetched for a character in a session that is opened and then asked other things. -/
def fetchFrom (bytes : Bytes) (name : String) (settings : Settings) (before : List Request)
    (character : Char) : Except FetchFault (Option CharacterGlyph) := do
  let session ← ofBytes bytes name settings
  let asked := ((before.mapM Request.ask).run session).2
  ((fetch character).run asked).1

theorem fetchFrom_eq (bytes : Bytes) (name : String) (settings : Settings)
    (before : List Request) (character : Char) :
    fetchFrom bytes name settings before character =
      (GlyphSource.ofBytes bytes name settings >>= fun source => source.fetch character) := by
  rw [fetchFrom, ofBytes]
  cases GlyphSource.ofBytes bytes name settings with
  | error fault => rfl
  | ok source =>
      rcases askAll_run (isFaithful_opened source) before with ⟨after, asked, continued⟩
      rcases fetch_yields continued.faithful character with ⟨last, fetched, -⟩
      simp only [bind, Except.bind, pure, Except.pure, asked, fetched, continued.source]

/-- A filter hides the glyphs that are tiny and the one with the hash of the filler. For every
other character what is fetched is the same as without filters, glyph or fault, whatever either
session was asked before. -/
theorem fetchFrom_filtered (bytes : Bytes) (name : String) (settings : Settings)
    (before others : List Request) (character : Char) :
    let shown := fetchFrom bytes name settings.unfiltered others character
    let isTiny := ∃ source, GlyphSource.ofBytes bytes name settings = .ok source ∧
      source.HasMark character
    let isFiller := ∃ glyph, shown = .ok (some glyph) ∧ settings.fillerHash = some glyph.hash
    (isTiny ∨ isFiller → fetchFrom bytes name settings before character = .ok none) ∧
      (¬isTiny → ¬isFiller → fetchFrom bytes name settings before character = shown) := by
  intro shown isTiny isFiller
  have ofUnfiltered : shown = ((GlyphSource.ofBytes bytes name settings).map
      GlyphSource.unfiltered >>= fun source => source.fetch character) := by
    rw [← GlyphSource.ofBytes_unfiltered]
    exact fetchFrom_eq bytes name settings.unfiltered others character
  rw [fetchFrom_eq]
  cases opened : GlyphSource.ofBytes bytes name settings with
  | error fault =>
      rw [opened] at ofUnfiltered
      refine ⟨?_, fun _ _ => ofUnfiltered.symm⟩
      rintro (⟨source, opened', -⟩ | ⟨glyph, given, -⟩)
      · rw [opened] at opened'
        cases opened'
      · rw [ofUnfiltered] at given
        cases given
  | ok source =>
      have sameShown : shown = source.unfiltered.fetch character := by
        rw [ofUnfiltered, opened]
        rfl
      have sameSettings : source.settings = settings := GlyphSource.settings_of_ofBytes opened
      rcases source.fetch_filtered character with ⟨mark, filler, other⟩
      refine ⟨?_, ?_⟩
      · rintro (⟨found, opened', hasMark⟩ | ⟨glyph, given, equal⟩)
        · rw [opened] at opened'
          cases opened'
          exact mark hasMark
        · exact filler glyph (sameShown ▸ given) (sameSettings ▸ equal)
      · intro notTiny notFiller
        rw [sameShown]
        refine other (fun hasMark => notTiny ⟨source, opened, hasMark⟩) ?_
        intro glyph given equal
        exact notFiller ⟨glyph, sameShown ▸ given, sameSettings ▸ equal⟩

/-- The square is hidden, and a glyph that cannot be decoded is still one. -/
theorem fetchFrom_filtered_square :
    let bytes := Sample.trueTypeFont .short
    let settings : Settings := { fillerHash := some 15770936826122881825 }
    fetchFrom bytes "Sample" settings [.fetch 'B', .fetch 'A'] 'A' = .ok none ∧
      fetchFrom bytes "Sample" settings [.fetch 'A'] 'F' =
        fetchFrom bytes "Sample" settings.unfiltered [] 'F' := by
  intro bytes settings
  constructor
  · refine (fetchFrom_filtered bytes "Sample" settings [.fetch 'B', .fetch 'A'] [] 'A').1 (.inr ?_)
    have isFiller : (fetchFrom bytes "Sample" settings.unfiltered [] 'A').toOption.join.map
        CharacterGlyph.hash = settings.fillerHash := by
      rw [fetchFrom_eq]
      decide +kernel
    cases shown : fetchFrom bytes "Sample" settings.unfiltered [] 'A' with
    | error fault =>
        rw [shown] at isFiller
        cases isFiller
    | ok found =>
        rw [shown] at isFiller
        cases found with
        | none => cases isFiller
        | some glyph => exact ⟨glyph, rfl, isFiller.symm⟩
  · have filtered : (fetchFrom bytes "Sample" settings [.fetch 'A'] 'F').isOk = false := by
      rw [fetchFrom_eq]
      decide +kernel
    have unfiltered : (fetchFrom bytes "Sample" settings.unfiltered [] 'F').isOk = false := by
      rw [fetchFrom_eq]
      decide +kernel
    have filters := fetchFrom_filtered bytes "Sample" settings [.fetch 'A'] [] 'F'
    refine filters.2 ?_ ?_
    · intro isTiny
      rw [filters.1 (.inl isTiny)] at filtered
      cases filtered
    · rintro ⟨glyph, shown, -⟩
      rw [shown] at unfiltered
      cases unfiltered

end Session

end Letterform
