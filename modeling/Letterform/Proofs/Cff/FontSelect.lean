import Letterform.Cff.FontSelect
import Letterform.Proofs.Ascending
import Letterform.Proofs.Bytes.Reading
import Mathlib.Data.List.Chain

/-!
The two formats of FDSelect say the same. A run reaches from its first glyph up to the run
behind it, so a glyph belongs to the last run that starts at or before it; written out for
every glyph, the fonts of the runs are a format 0.
-/

namespace Letterform.Cff

/-! Runs and the glyphs in them. -/

/-- Runs that cover all glyphs from the first one up to the sentinel. -/
structure AreRuns (runs : List GlyphRun) (sentinel : UInt16) : Prop where
  first : ∃ font, runs.head? = some ⟨0, font⟩
  ascending : runs.IsChain fun run next => run.first < next.first
  last : ∀ run ∈ runs.getLast?, run.first < sentinel

/-- The last run whose first glyph is not above a glyph. -/
def lastStarted? (runs : List GlyphRun) (glyph : Nat) : Option GlyphRun :=
  (runs.filter fun run => run.first.toNat ≤ glyph).getLast?

def fontsOf (runs : List GlyphRun) (sentinel : UInt16) : List UInt8 :=
  (List.range sentinel.toNat).filterMap fun glyph => (lastStarted? runs glyph).map GlyphRun.font

namespace AreRuns

variable {runs : List GlyphRun} {sentinel : UInt16} (areRuns : AreRuns runs sentinel)

include areRuns

theorem pairwise : runs.Pairwise fun run later => run.first < later.first := by
  have ascending := (List.isChain_map GlyphRun.first).mpr areRuns.ascending
  exact List.pairwise_map.mp (List.isChain_iff_pairwise.mp ascending)

theorem first_lt {run : GlyphRun} (member : run ∈ runs) : run.first < sentinel := by
  rcases List.eq_nil_or_concat' runs with rfl | ⟨earlier, final, rfl⟩
  · cases member
  · have last : final.first < sentinel := areRuns.last final List.getLast?_concat
    rcases List.mem_append.mp member with before | isFinal
    · have pairwise := (List.pairwise_append.mp areRuns.pairwise).2.2
      exact UInt16.lt_trans (pairwise run before final List.mem_cons_self) last
    · rwa [List.mem_singleton.mp isFinal]

theorem length_le : runs.length ≤ sentinel.toNat := by
  apply length_le_of_ascending (areRuns.pairwise.imp UInt16.lt_iff_toNat_lt.mp)
  intro run member
  exact UInt16.lt_iff_toNat_lt.mp (areRuns.first_lt member)

theorem exists_lastStarted (glyph : Nat) : ∃ run, lastStarted? runs glyph = some run := by
  rcases areRuns.first with ⟨font, head⟩
  have member : (⟨0, font⟩ : GlyphRun) ∈ runs.filter fun run => run.first.toNat ≤ glyph :=
    List.mem_filter.mpr ⟨List.mem_of_head? head, decide_eq_true (Nat.zero_le glyph)⟩
  exact ⟨_, List.getLast?_eq_some_getLast (List.ne_nil_of_mem member)⟩

theorem exists_fontsOf_eq_map : ∃ fontOf : Nat → UInt8,
    fontsOf runs sentinel = (List.range sentinel.toNat).map fontOf ∧
      ∀ glyph, (lastStarted? runs glyph).map GlyphRun.font = some (fontOf glyph) := by
  choose runOf started using areRuns.exists_lastStarted
  refine ⟨fun glyph => (runOf glyph).font, ?_, fun glyph => by rw [started]; rfl⟩
  simp only [fontsOf, started, Option.map_some, List.filterMap_eq_map']

theorem length_fontsOf : (fontsOf runs sentinel).length = sentinel.toNat := by
  rcases areRuns.exists_fontsOf_eq_map with ⟨fontOf, equal, -⟩
  rw [equal, List.length_map, List.length_range]

theorem getElem?_fontsOf {glyph : Nat} (below : glyph < sentinel.toNat) :
    (fontsOf runs sentinel)[glyph]? = (lastStarted? runs glyph).map GlyphRun.font := by
  rcases areRuns.exists_fontsOf_eq_map with ⟨fontOf, equal, fonts⟩
  rw [equal, fonts, List.getElem?_map, List.getElem?_range below, Option.map_some]

/-! The font of a glyph. -/

theorem font?_runs {glyph : GlyphId} (below : glyph.value < sentinel) :
    (FontSelect.runs runs sentinel).font? glyph =
      (lastStarted? runs glyph.toNat).map GlyphRun.font := by
  have parted : runs.Pairwise fun run later =>
      decide (later.first ≤ glyph.value) → decide (run.first ≤ glyph.value) := by
    apply areRuns.pairwise.imp
    intro run later before
    simpa using UInt16.le_trans (UInt16.le_of_lt before)
  have sameTest : (fun run : GlyphRun => decide (run.first.toNat ≤ glyph.toNat)) =
      fun run => decide (run.first ≤ glyph.value) := by
    funext run
    exact decide_eq_decide.mpr UInt16.le_iff_toNat_le.symm
  rw [lastStarted?, sameTest, getLast?_filter_eq_getElem? parted, FontSelect.font?,
    if_neg (UInt16.not_le.mpr below), partitionPoint_eq_findIdx parted]
  simp only
  split <;> rfl

end AreRuns

/-! The font by the place where a run would be inserted. -/

/-- What a search for a run that starts at a glyph may answer: a place where there is one, or the
place where it would have to be inserted. -/
inductive IsPlace (runs : List GlyphRun) (glyph : UInt16) : Except Nat Nat → Prop
  | hit {place : Nat} {run : GlyphRun} (found : runs[place]? = some run)
      (starts : run.first = glyph) : IsPlace runs glyph (.ok place)
  | insertion {place : Nat} (inside : place ≤ runs.length)
      (before : ∀ index run, index < place → runs[index]? = some run → run.first < glyph)
      (behind : ∀ index run, place ≤ index → runs[index]? = some run → glyph < run.first) :
      IsPlace runs glyph (.error place)

/-- The run that was hit, or the one in front of the insertion. -/
def placeOfRun? : Except Nat Nat → Option Nat
  | .ok place => some place
  | .error 0 => none
  | .error (place + 1) => some place

theorem partitionPoint_started {runs : List GlyphRun} {glyph : UInt16} {count : Nat}
    (inside : count ≤ runs.length)
    (started : ∀ index run, index < count → runs[index]? = some run → run.first ≤ glyph)
    (later : ∀ index run, count ≤ index → runs[index]? = some run → glyph < run.first) :
    partitionPoint (fun index => runs[index]?.any fun run => run.first ≤ glyph) 0 runs.length =
      count := by
  apply partitionPoint_eq _ 0 _ _ (Nat.zero_le _) inside
  · intro index _ early
    have found := List.getElem?_eq_getElem (Nat.lt_of_lt_of_le early inside)
    rw [found, Option.any_some]
    exact decide_eq_true (started index _ early found)
  · intro index late within
    have found := List.getElem?_eq_getElem within
    rw [found, Option.any_some]
    exact decide_eq_false (UInt16.not_le.mpr (later index _ late found))

section Places

variable {runs : List GlyphRun}
  (ascending : runs.Pairwise fun run later => run.first < later.first)

include ascending

theorem first_lt_of_lt {index later : Nat} {run other : GlyphRun} (before : index < later)
    (found : runs[index]? = some run) (foundLater : runs[later]? = some other) :
    run.first < other.first := by
  rcases List.getElem?_eq_some_iff.mp found with ⟨within, rfl⟩
  rcases List.getElem?_eq_some_iff.mp foundLater with ⟨withinLater, rfl⟩
  exact List.pairwise_iff_getElem.mp ascending index later within withinLater before

theorem exists_isPlace (glyph : UInt16) : ∃ answer, IsPlace runs glyph answer := by
  let reaches : GlyphRun → Bool := fun run => decide (glyph ≤ run.first)
  have before : ∀ index run, index < runs.findIdx reaches → runs[index]? = some run →
      run.first < glyph := by
    intro index run early found
    rcases List.getElem?_eq_some_iff.mp found with ⟨within, rfl⟩
    have passed := List.not_of_lt_findIdx early
    exact UInt16.not_le.mp (of_decide_eq_false passed)
  cases found : runs[runs.findIdx reaches]? with
  | none =>
      refine ⟨.error (runs.findIdx reaches), .insertion List.findIdx_le_length before ?_⟩
      intro index run late foundLater
      have within := (List.getElem?_eq_some_iff.mp foundLater).1
      have beyond := List.getElem?_eq_none_iff.mp found
      omega
  | some run =>
      rcases List.getElem?_eq_some_iff.mp found with ⟨within, isRun⟩
      have reached : glyph ≤ run.first := by
        have passed := List.findIdx_getElem (w := within)
        rw [isRun] at passed
        exact of_decide_eq_true passed
      by_cases starts : run.first = glyph
      · exact ⟨.ok _, .hit found starts⟩
      · have above : glyph < run.first := UInt16.lt_of_le_of_ne reached (Ne.symm starts)
        refine ⟨.error (runs.findIdx reaches), .insertion List.findIdx_le_length before ?_⟩
        intro index other late foundLater
        rcases Nat.eq_or_lt_of_le late with rfl | later
        · rw [found] at foundLater
          cases foundLater
          exact above
        · exact UInt16.lt_trans above (first_lt_of_lt ascending later found foundLater)

/-- Hits and insertions lead to the run that the halving of the runs leads to. -/
theorem font?_of_isPlace {glyph : GlyphId} {sentinel : UInt16} {answer : Except Nat Nat}
    (below : glyph.value < sentinel) (isPlace : IsPlace runs glyph.value answer) :
    (FontSelect.runs runs sentinel).font? glyph =
      (placeOfRun? answer).bind fun place => runs[place]?.map GlyphRun.font := by
  rw [FontSelect.font?, if_neg (UInt16.not_le.mpr below)]
  cases isPlace with
  | @hit place run found starts =>
      have within := (List.getElem?_eq_some_iff.mp found).1
      have started : partitionPoint
          (fun index => runs[index]?.any fun run => run.first ≤ glyph.value) 0 runs.length =
            place + 1 := by
        apply partitionPoint_started within
        · intro index other early foundEarly
          rcases Nat.eq_or_lt_of_le (Nat.le_of_lt_succ early) with rfl | before
          · rw [found] at foundEarly
            cases foundEarly
            exact UInt16.le_of_eq starts
          · rw [← starts]
            exact UInt16.le_of_lt (first_lt_of_lt ascending before foundEarly found)
        · intro index other late foundLate
          rw [← starts]
          exact first_lt_of_lt ascending late found foundLate
      simp only [started]
      rfl
  | @insertion place inside before behind =>
      have started : partitionPoint
          (fun index => runs[index]?.any fun run => run.first ≤ glyph.value) 0 runs.length =
            place :=
        partitionPoint_started inside
          (fun index run early found => UInt16.le_of_lt (before index run early found)) behind
      simp only [started]
      cases place with
      | zero => rfl
      | succ place => rfl

end Places

namespace FontSelect

/-! The bytes of the two formats. -/

def encodePerGlyph (fonts : List UInt8) : Bytes := 0 :: fonts

def encodeRuns (runs : List GlyphRun) (sentinel : UInt16) : Bytes :=
  3 :: (Bytes.ofNumber 2 runs.length ++ (Packed.encodeList runs ++ Packed.encode sentinel))

theorem decode_encodePerGlyph {fonts : List UInt8} {count : UInt16}
    (length : fonts.length = count.toNat) (behind : Bytes) :
    (decoder count).decode (encodePerGlyph fonts ++ behind) = .ok (.perGlyph fonts) := by
  have format := ((Decoder.Reads.byte 0).mapFault Fault.read).within
  have list := (Decoder.ReadsWithin.readList length).mapFault Fault.read
  rw [Packed.encodeList_bytes] at list
  have reads : (decoder count).ReadsWithin ([0] ++ (fonts ++ [])) (.perGlyph fonts) :=
    format.bind (list.bind (Decoder.Reads.pure _).within)
  have small : ([0] ++ (fonts ++ [])).length ≤ lastOffset := by
    have large : 1 + 65535 ≤ lastOffset := by decide
    have bound := count.toNat_lt
    rw [List.append_nil, List.length_append, List.length_singleton]
    omega
  have decoded := reads.decode small behind
  rwa [List.append_nil] at decoded

theorem decode_encodeRuns {runs : List GlyphRun} (few : runs.length < 65536)
    (sentinel count : UInt16) (behind : Bytes) :
    (decoder count).decode (encodeRuns runs sentinel ++ behind) = .ok (.runs runs sentinel) := by
  have number : (UInt16.ofNat runs.length).toNat = runs.length := UInt16.toNat_ofNat_of_lt' few
  have format := ((Decoder.Reads.byte 3).mapFault Fault.read).within
  have runCount := ((Decoder.Reads.read (UInt16.ofNat runs.length)).mapFault Fault.read).within
  have list := (Decoder.ReadsWithin.readList number.symm).mapFault Fault.read
  have final := ((Decoder.Reads.read sentinel).mapFault Fault.read).within
  have reads : (decoder count).ReadsWithin
      ([3] ++ (Packed.encode (UInt16.ofNat runs.length) ++
        (Packed.encodeList runs ++ (Packed.encode sentinel ++ [])))) (.runs runs sentinel) :=
    format.bind (runCount.bind (list.bind (final.bind (Decoder.Reads.pure _).within)))
  have encoded : Packed.encode (UInt16.ofNat runs.length) = Bytes.ofNumber 2 runs.length :=
    congrArg (Bytes.ofNumber 2) number
  rw [List.append_nil, encoded] at reads
  have small : ([3] ++ (Bytes.ofNumber 2 runs.length ++
      (Packed.encodeList runs ++ Packed.encode sentinel))).length ≤ lastOffset := by
    have large : 1 + 2 + 65535 * 3 + 2 ≤ lastOffset := by decide
    have widthRun : Packed.width GlyphRun = 3 := rfl
    have width16 : Packed.width UInt16 = 2 := rfl
    simp only [List.length_append, List.length_singleton, Bytes.length_ofNumber,
      Packed.length_encodeList, Packed.length_encode, widthRun, width16]
    omega
  exact reads.decode small behind

end FontSelect

/-- Runs give every glyph the same font as the list of the fonts of all glyphs does, which is the
font of the last run that starts at or before the glyph. No glyph from the sentinel on has one. -/
theorem font?_runs_eq_perGlyph {runs : List GlyphRun} {sentinel : UInt16}
    (areRuns : AreRuns runs sentinel) (behindRuns behindFonts : Bytes) :
    (FontSelect.decoder sentinel).decode (FontSelect.encodeRuns runs sentinel ++ behindRuns) =
        .ok (.runs runs sentinel) ∧
      (FontSelect.decoder sentinel).decode
          (FontSelect.encodePerGlyph (fontsOf runs sentinel) ++ behindFonts) =
        .ok (.perGlyph (fontsOf runs sentinel)) ∧
      ∀ glyph, (FontSelect.runs runs sentinel).font? glyph =
          (FontSelect.perGlyph (fontsOf runs sentinel)).font? glyph ∧
        (glyph.value < sentinel → ∃ run, lastStarted? runs glyph.toNat = some run ∧
          (FontSelect.runs runs sentinel).font? glyph = some run.font) ∧
        (sentinel ≤ glyph.value → (FontSelect.runs runs sentinel).font? glyph = none) := by
  refine ⟨?readRuns, ?readFonts, fun glyph => ⟨?same, ?below, ?above⟩⟩
  case readRuns =>
    have few : runs.length < 65536 := Nat.lt_of_le_of_lt areRuns.length_le sentinel.toNat_lt
    exact FontSelect.decode_encodeRuns few sentinel sentinel behindRuns
  case readFonts => exact FontSelect.decode_encodePerGlyph areRuns.length_fontsOf behindFonts
  case below =>
    intro below
    rcases areRuns.exists_lastStarted glyph.toNat with ⟨run, started⟩
    exact ⟨run, started, by rw [areRuns.font?_runs below, started]; rfl⟩
  case above =>
    intro above
    exact if_pos above
  case same =>
    by_cases below : glyph.value < sentinel
    · rw [areRuns.font?_runs below]
      exact (areRuns.getElem?_fontsOf (UInt16.lt_iff_toNat_lt.mp below)).symm
    · have above : sentinel ≤ glyph.value := UInt16.not_lt.mp below
      have beyond : (fontsOf runs sentinel).length ≤ glyph.toNat := by
        rw [areRuns.length_fontsOf]
        exact UInt16.le_iff_toNat_le.mp above
      exact (if_pos above).trans (List.getElem?_eq_none beyond).symm

/-- Three runs, one of them of a single glyph, and bytes behind both formats. -/
theorem font?_runs_eq_perGlyph_three :
    let runs : List GlyphRun := [⟨0, 5⟩, ⟨3, 0⟩, ⟨4, 7⟩]
    let fonts : List UInt8 := [5, 5, 5, 0, 7, 7]
    AreRuns runs 6 ∧
      (FontSelect.decoder 6).decode [3, 0, 3, 0, 0, 5, 0, 3, 0, 0, 4, 7, 0, 6, 1] =
        .ok (.runs runs 6) ∧
      (FontSelect.decoder 6).decode [0, 5, 5, 5, 0, 7, 7, 2, 2] = .ok (.perGlyph fonts) ∧
      ∀ glyph, (FontSelect.runs runs 6).font? glyph =
        (FontSelect.perGlyph fonts).font? glyph := by
  intro runs fonts
  have areRuns : AreRuns runs 6 := ⟨⟨5, rfl⟩, by decide, by decide⟩
  have writtenRuns : FontSelect.encodeRuns runs 6 =
      [3, 0, 3, 0, 0, 5, 0, 3, 0, 0, 4, 7, 0, 6] := by decide
  have writtenFonts : fontsOf runs 6 = fonts := by decide
  rcases font?_runs_eq_perGlyph areRuns [1] [2, 2] with ⟨readRuns, readFonts, same⟩
  rw [writtenRuns] at readRuns
  rw [writtenFonts] at readFonts same
  exact ⟨areRuns, readRuns, readFonts, fun glyph => (same glyph).1⟩

end Letterform.Cff
