import Letterform.CharacterMap

/-!
Which subtables answer for a character. The records are taken in one by one, and of each kind
the first map is kept. A record that leads to no map for its encoding is passed over, so it may
stand anywhere in the list.
-/

namespace Letterform

namespace Cmap

/-! Encodings, by platform. -/

def basicEncodings : List (UInt16 × UInt16) := [(3, 1), (0, 0), (0, 1), (0, 2), (0, 3)]

def fullEncodings : List (UInt16 × UInt16) := [(3, 10), (0, 4), (0, 6)]

namespace EncodingRecord

def IsFor (record : EncodingRecord) (encodings : List (UInt16 × UInt16)) : Prop :=
  (record.platform, record.encoding) ∈ encodings

theorem isBasicUnicode_iff (record : EncodingRecord) :
    record.isBasicUnicode = true ↔ record.IsFor basicEncodings := by
  have low : record.encoding ≤ 3 ↔ record.encoding = 0 ∨ record.encoding = 1 ∨
      record.encoding = 2 ∨ record.encoding = 3 := by
    simp only [UInt16.le_iff_toNat_le, ← UInt16.toNat_inj, UInt16.reduceToNat]
    omega
  by_cases windows : record.platform = windowsPlatform
  · simp [isBasicUnicode, IsFor, basicEncodings, windows, windowsPlatform]
  · have notThree : record.platform ≠ 3 := windows
    rw [isBasicUnicode, if_neg windows, Bool.and_eq_true, decide_eq_true_eq, decide_eq_true_eq, low]
    simp [IsFor, basicEncodings, notThree, unicodePlatform, and_or_left]

theorem isFullUnicode_iff (record : EncodingRecord) :
    record.isFullUnicode = true ↔ record.IsFor fullEncodings := by
  by_cases windows : record.platform = windowsPlatform
  · simp [isFullUnicode, IsFor, fullEncodings, windows, windowsPlatform]
  · have notThree : record.platform ≠ 3 := windows
    rw [isFullUnicode, if_neg windows, Bool.and_eq_true, decide_eq_true_eq]
    simp [IsFor, fullEncodings, notThree, unicodePlatform, and_or_left]

end EncodingRecord

/-! Maps that records lead to. -/

variable (cmap : Cmap)

structure GivesBasic (record : EncodingRecord) (map : SegmentMap) : Prop where
  encoding : record.IsFor basicEncodings
  subtable : cmap.subtable record = .ok (.segments map)

structure GivesFull (record : EncodingRecord) (map : GroupMap) : Prop where
  encoding : record.IsFor fullEncodings
  subtable : cmap.subtable record = .ok (.groups map)

/-- No map comes from the record: its subtable cannot be read, is of another format, or does
not belong to the encoding. -/
inductive IsPassedOver (record : EncodingRecord) : Prop
  | unreadable {error : ReadError} (subtable : cmap.subtable record = .error error)
  | unsupported {format : UInt16} (subtable : cmap.subtable record = .ok (.other format))
  | segments {map : SegmentMap} (subtable : cmap.subtable record = .ok (.segments map))
      (mismatched : ¬record.IsFor basicEncodings)
  | groups {map : GroupMap} (subtable : cmap.subtable record = .ok (.groups map))
      (mismatched : ¬record.IsFor fullEncodings)

def FirstGives {α : Type} (gives : EncodingRecord → α → Prop) (value : α) : Prop :=
  ∃ before record behind, cmap.records = before ++ record :: behind ∧ gives record value ∧
    ∀ other ∈ before, ∀ value, ¬gives other value

def BasicGlyph (code : UInt32) (glyph : GlyphId) : Prop :=
  ∃ map, cmap.FirstGives cmap.GivesBasic map ∧ map.glyph? code = some glyph

def FullGlyph (code : UInt32) (glyph : GlyphId) : Prop :=
  ∃ map, cmap.FirstGives cmap.GivesFull map ∧ map.glyph? code = some glyph

inductive Answers (code : UInt32) (glyph : GlyphId) : Prop
  | basic (found : cmap.BasicGlyph code glyph) (isGlyph : glyph ≠ .notdef)
  | full (left : ∀ other, cmap.BasicGlyph code other → other = .notdef)
      (found : cmap.FullGlyph code glyph) (isGlyph : glyph ≠ .notdef)

inductive MapsSame : Subtable → Subtable → Prop
  | segments {map other : SegmentMap} (glyphs : map.glyph? = other.glyph?) :
      MapsSame (.segments map) (.segments other)
  | groups {map other : GroupMap} (glyphs : map.glyph? = other.glyph?) :
      MapsSame (.groups map) (.groups other)

/-- Lists of records of two tables that lead to subtables that map the same, one after the other,
but for records that are passed over. -/
inductive UsesSame (first second : Cmap) : List EncodingRecord → List EncodingRecord → Prop
  | nil : UsesSame first second [] []
  | left {record : EncodingRecord} {records others : List EncodingRecord}
      (passed : first.IsPassedOver record) (rest : UsesSame first second records others) :
      UsesSame first second (record :: records) others
  | right {other : EncodingRecord} {records others : List EncodingRecord}
      (passed : second.IsPassedOver other) (rest : UsesSame first second records others) :
      UsesSame first second records (other :: others)
  | both {record other : EncodingRecord} {records others : List EncodingRecord}
      {subtable otherSubtable : Subtable}
      (platform : record.platform = other.platform) (encoding : record.encoding = other.encoding)
      (leads : first.subtable record = .ok subtable)
      (otherLeads : second.subtable other = .ok otherSubtable)
      (mapsSame : MapsSame subtable otherSubtable)
      (rest : UsesSame first second records others) :
      UsesSame first second (record :: records) (other :: others)

variable {cmap}

theorem Answers.ne_notdef {code : UInt32} {glyph : GlyphId} (answers : cmap.Answers code glyph) :
    glyph ≠ .notdef := by
  cases answers with
  | basic _ isGlyph => exact isGlyph
  | full _ _ isGlyph => exact isGlyph

theorem IsPassedOver.not_givesBasic {record : EncodingRecord} (passed : cmap.IsPassedOver record)
    (map : SegmentMap) : ¬cmap.GivesBasic record map := by
  intro gives
  cases passed with
  | unreadable subtable => cases subtable.symm.trans gives.subtable
  | unsupported subtable => cases subtable.symm.trans gives.subtable
  | segments _ mismatched => exact mismatched gives.encoding
  | groups subtable _ => cases subtable.symm.trans gives.subtable

theorem IsPassedOver.not_givesFull {record : EncodingRecord} (passed : cmap.IsPassedOver record)
    (map : GroupMap) : ¬cmap.GivesFull record map := by
  intro gives
  cases passed with
  | unreadable subtable => cases subtable.symm.trans gives.subtable
  | unsupported subtable => cases subtable.symm.trans gives.subtable
  | segments subtable _ => cases subtable.symm.trans gives.subtable
  | groups _ mismatched => exact mismatched gives.encoding

theorem findSome?_eq_some_iff_firstGives {α : Type} {map? : EncodingRecord → Option α}
    {gives : EncodingRecord → α → Prop}
    (mapped : ∀ record value, map? record = some value ↔ gives record value) {value : α} :
    cmap.records.findSome? map? = some value ↔ cmap.FirstGives gives value := by
  have nothing : ∀ record, map? record = none ↔ ∀ value, ¬gives record value := by
    intro record
    simp only [Option.eq_none_iff_forall_ne_some, ne_eq, mapped]
  simp only [List.findSome?_eq_some_iff, FirstGives, mapped, nothing]

end Cmap

namespace CharacterMap

open Cmap

variable {cmap : Cmap}

theorem basicMap?_eq_some_iff {record : EncodingRecord} {map : SegmentMap} :
    basicMap? cmap record = some map ↔ cmap.GivesBasic record map := by
  constructor
  · intro given
    unfold basicMap? at given
    split at given
    · next isBasic =>
        split at given
        · next read =>
            cases given
            exact ⟨record.isBasicUnicode_iff.mp isBasic, read⟩
        · cases given
    · cases given
  · intro gives
    rw [basicMap?, if_pos (record.isBasicUnicode_iff.mpr gives.encoding), gives.subtable]

theorem fullMap?_eq_some_iff {record : EncodingRecord} {map : GroupMap} :
    fullMap? cmap record = some map ↔ cmap.GivesFull record map := by
  constructor
  · intro given
    unfold fullMap? at given
    split at given
    · next isFull =>
        split at given
        · next read =>
            cases given
            exact ⟨record.isFullUnicode_iff.mp isFull, read⟩
        · cases given
    · cases given
  · intro gives
    rw [fullMap?, if_pos (record.isFullUnicode_iff.mpr gives.encoding), gives.subtable]

theorem bind_filter_isGlyph {α : Type} {map? : Option α} {glyphOf : α → Option GlyphId}
    {glyph : GlyphId} :
    (map?.bind glyphOf).filter (fun glyph => !glyph.isNotdef) = some glyph ↔
      (∃ map, map? = some map ∧ glyphOf map = some glyph) ∧ glyph ≠ .notdef := by
  simp [Option.filter_eq_some_iff, GlyphId.isNotdef, Option.bind_eq_some_iff]

theorem basicGlyph?_eq_some_iff {code : UInt32} {glyph : GlyphId} :
    (ofCmap cmap).basicGlyph? code = some glyph ↔ cmap.BasicGlyph code glyph ∧ glyph ≠ .notdef := by
  simp only [basicGlyph?, bind_filter_isGlyph, BasicGlyph, ofCmap,
    findSome?_eq_some_iff_firstGives fun _ _ => basicMap?_eq_some_iff]

theorem fullGlyph?_eq_some_iff {code : UInt32} {glyph : GlyphId} :
    (ofCmap cmap).fullGlyph? code = some glyph ↔ cmap.FullGlyph code glyph ∧ glyph ≠ .notdef := by
  simp only [fullGlyph?, bind_filter_isGlyph, FullGlyph, ofCmap,
    findSome?_eq_some_iff_firstGives fun _ _ => fullMap?_eq_some_iff]

theorem basicGlyph?_eq_none_iff {code : UInt32} :
    (ofCmap cmap).basicGlyph? code = none ↔
      ∀ glyph, cmap.BasicGlyph code glyph → glyph = .notdef := by
  simp [Option.eq_none_iff_forall_ne_some, basicGlyph?_eq_some_iff]

theorem glyph?_ofCmap_eq_some_iff {code : UInt32} {glyph : GlyphId} :
    (ofCmap cmap).glyph? code = some glyph ↔ cmap.Answers code glyph := by
  rw [glyph?, Option.or_eq_some_iff, basicGlyph?_eq_some_iff, basicGlyph?_eq_none_iff,
    fullGlyph?_eq_some_iff]
  constructor
  · intro given
    rcases given with basic | ⟨left, full⟩
    · exact .basic basic.1 basic.2
    · exact .full left full.1 full.2
  · intro answers
    cases answers with
    | basic found isGlyph => exact .inl ⟨found, isGlyph⟩
    | full left found isGlyph => exact .inr ⟨left, found, isGlyph⟩

/-! Taking in records. -/

/-- Takes in one more record. What has been found before is kept. -/
def takeIn (cmap : Cmap) (map : CharacterMap) (record : EncodingRecord) : CharacterMap where
  basic := map.basic.or (basicMap? cmap record)
  full := map.full.or (fullMap? cmap record)

theorem foldl_takeIn (records : List EncodingRecord) (map : CharacterMap) :
    records.foldl (takeIn cmap) map =
      { basic := map.basic.or (records.findSome? (basicMap? cmap))
        full := map.full.or (records.findSome? (fullMap? cmap)) } := by
  induction records generalizing map with
  | nil => simp
  | cons record records induction =>
      rw [List.foldl_cons, induction]
      simp only [takeIn, Option.or_assoc, List.findSome?_cons]
      cases basicMap? cmap record <;> cases fullMap? cmap record <;> simp

theorem ofCmap_eq_foldl (cmap : Cmap) : ofCmap cmap = cmap.records.foldl (takeIn cmap) {} := by
  simp [foldl_takeIn, ofCmap]

theorem takeIn_of_passedOver {record : EncodingRecord} (passed : cmap.IsPassedOver record)
    (map : CharacterMap) : takeIn cmap map record = map := by
  have noBasic : basicMap? cmap record = none := by
    rw [Option.eq_none_iff_forall_ne_some]
    intro other given
    exact passed.not_givesBasic other (basicMap?_eq_some_iff.mp given)
  have noFull : fullMap? cmap record = none := by
    rw [Option.eq_none_iff_forall_ne_some]
    intro other given
    exact passed.not_givesFull other (fullMap?_eq_some_iff.mp given)
  rw [takeIn, noBasic, noFull, Option.or_none, Option.or_none]

structure AgreesWith (map other : CharacterMap) : Prop where
  basic : map.basic.map SegmentMap.glyph? = other.basic.map SegmentMap.glyph?
  full : map.full.map GroupMap.glyph? = other.full.map GroupMap.glyph?

theorem bind_eq_of_map_eq {α : Type} {glyphOf : α → UInt32 → Option GlyphId}
    {map? other? : Option α} (same : map?.map glyphOf = other?.map glyphOf) (code : UInt32) :
    (map?.bind fun map => glyphOf map code) = other?.bind fun other => glyphOf other code := by
  have found := congrArg (fun glyphs => glyphs.bind fun glyph? => glyph? code) same
  simpa only [Option.bind_map, Function.comp_def] using found

theorem AgreesWith.glyph?_eq {map other : CharacterMap} (agrees : map.AgreesWith other)
    (code : UInt32) : map.glyph? code = other.glyph? code := by
  have basic : map.basicGlyph? code = other.basicGlyph? code := by
    rw [basicGlyph?, basicGlyph?, bind_eq_of_map_eq agrees.basic]
  have full : map.fullGlyph? code = other.fullGlyph? code := by
    rw [fullGlyph?, fullGlyph?, bind_eq_of_map_eq agrees.full]
  rw [glyph?, glyph?, basic, full]

section Same

variable {first second : Cmap} {record other : EncodingRecord}

theorem map_basicMap?_of_mapsSame {subtable otherSubtable : Subtable}
    (leads : first.subtable record = .ok subtable)
    (otherLeads : second.subtable other = .ok otherSubtable)
    (mapsSame : MapsSame subtable otherSubtable)
    (isBasic : record.isBasicUnicode = other.isBasicUnicode) :
    (basicMap? first record).map SegmentMap.glyph? =
      (basicMap? second other).map SegmentMap.glyph? := by
  simp only [basicMap?, leads, otherLeads, isBasic]
  cases mapsSame with
  | segments glyphs => split <;> simp [glyphs]
  | groups glyphs => rfl

theorem map_fullMap?_of_mapsSame {subtable otherSubtable : Subtable}
    (leads : first.subtable record = .ok subtable)
    (otherLeads : second.subtable other = .ok otherSubtable)
    (mapsSame : MapsSame subtable otherSubtable)
    (isFull : record.isFullUnicode = other.isFullUnicode) :
    (fullMap? first record).map GroupMap.glyph? =
      (fullMap? second other).map GroupMap.glyph? := by
  simp only [fullMap?, leads, otherLeads, isFull]
  cases mapsSame with
  | segments glyphs => rfl
  | groups glyphs => split <;> simp [glyphs]

/-- By induction on the two lists, with whatever has been found before them. -/
theorem agreesWith_foldl_takeIn {records others : List EncodingRecord}
    (same : UsesSame first second records others) {map otherMap : CharacterMap}
    (agrees : map.AgreesWith otherMap) :
    (records.foldl (takeIn first) map).AgreesWith (others.foldl (takeIn second) otherMap) := by
  induction same generalizing map otherMap with
  | nil => exact agrees
  | left passed _ induction =>
      rw [List.foldl_cons, takeIn_of_passedOver passed]
      exact induction agrees
  | right passed _ induction =>
      rw [List.foldl_cons, takeIn_of_passedOver passed]
      exact induction agrees
  | both platform encoding leads otherLeads mapsSame _ induction =>
      apply induction
      constructor
      case basic =>
        simp only [takeIn, Option.map_or]
        rw [agrees.basic, map_basicMap?_of_mapsSame leads otherLeads mapsSame]
        rw [EncodingRecord.isBasicUnicode, EncodingRecord.isBasicUnicode, platform, encoding]
      case full =>
        simp only [takeIn, Option.map_or]
        rw [agrees.full, map_fullMap?_of_mapsSame leads otherLeads mapsSame]
        rw [EncodingRecord.isFullUnicode, EncodingRecord.isFullUnicode, platform, encoding]

theorem agreesWith_ofCmap (same : UsesSame first second first.records second.records) :
    (ofCmap first).AgreesWith (ofCmap second) := by
  rw [ofCmap_eq_foldl, ofCmap_eq_foldl]
  exact agreesWith_foldl_takeIn same ⟨rfl, rfl⟩

end Same

end CharacterMap

namespace FontFile

open Cmap

theorem characterMap_of_cmap {file : FontFile} {cmap : Cmap} (readable : file.cmap = .ok cmap) :
    file.characterMap = .ofCmap cmap := by
  rw [characterMap, readable]

/-- A character has the glyph of the first map that says one, never glyph 0, and records that are
passed over make no difference. -/
theorem characterMap_answers {file : FontFile} {cmap : Cmap} (readable : file.cmap = .ok cmap)
    (code : UInt32) :
    (∀ glyph, file.characterMap.glyph? code = some glyph ↔ cmap.Answers code glyph) ∧
      file.characterMap.glyph? code ≠ some .notdef ∧
      ∀ (other : FontFile) (otherCmap : Cmap), other.cmap = .ok otherCmap →
        UsesSame cmap otherCmap cmap.records otherCmap.records →
        other.characterMap.glyph? code = file.characterMap.glyph? code := by
  rw [characterMap_of_cmap readable]
  refine ⟨fun glyph => CharacterMap.glyph?_ofCmap_eq_some_iff, ?notZero, ?passedOver⟩
  case notZero =>
    intro zero
    exact (CharacterMap.glyph?_ofCmap_eq_some_iff.mp zero).ne_notdef rfl
  case passedOver =>
    intro other otherCmap otherReadable same
    rw [characterMap_of_cmap otherReadable]
    exact ((CharacterMap.agreesWith_ofCmap same).glyph?_eq code).symm

/-- A subtable of an unknown format and one that is missing make no difference to the groups
between them. -/
theorem characterMap_answers_groups :
    let groups := encodeGroups [⟨0x41, 0x42, 3⟩]
    let long := Cmap.encode [⟨3, 1, [0, 6]⟩, ⟨3, 10, groups⟩, ⟨0, 4, []⟩]
    let short := Cmap.encode [⟨3, 10, groups⟩]
    let file : FontFile := ⟨long, trueTypeVersion, [⟨.cmap, 0, 0, 58⟩]⟩
    let other : FontFile := ⟨short, trueTypeVersion, [⟨.cmap, 0, 0, 40⟩]⟩
    let cmap : Cmap := ⟨0, [⟨3, 1, 28⟩, ⟨3, 10, 30⟩, ⟨0, 4, 58⟩], long⟩
    file.cmap = .ok cmap ∧
      (∀ glyph, file.characterMap.glyph? 0x42 = some glyph ↔ cmap.Answers 0x42 glyph) ∧
      file.characterMap.glyph? 0x42 ≠ some .notdef ∧
      other.characterMap.glyph? 0x42 = file.characterMap.glyph? 0x42 ∧
      file.characterMap.glyph? 0x42 = some ⟨4⟩ := by
  intro groups long short file other cmap
  subst groups
  let otherCmap : Cmap := ⟨0, [⟨3, 10, 12⟩], short⟩
  have readable : file.cmap = .ok cmap := by rfl
  have otherReadable : other.cmap = .ok otherCmap := by rfl
  have unsupported : cmap.subtable ⟨3, 1, 28⟩ = .ok (.other 6) := by rfl
  have unreadable : cmap.subtable ⟨0, 4, 58⟩ = .error (.outOfBounds 0) := by rfl
  have leads : cmap.subtable ⟨3, 10, 30⟩ = .ok (.groups ⟨[⟨0x41, 0x42, 3⟩]⟩) := by rfl
  have otherLeads : otherCmap.subtable ⟨3, 10, 12⟩ = .ok (.groups ⟨[⟨0x41, 0x42, 3⟩]⟩) := by rfl
  have same : UsesSame cmap otherCmap cmap.records otherCmap.records :=
    .left (.unsupported unsupported)
      (.both rfl rfl leads otherLeads (.groups rfl) (.left (.unreadable unreadable) .nil))
  rcases characterMap_answers readable 0x42 with ⟨answers, notZero, passedOver⟩
  exact ⟨readable, answers, notZero, passedOver other otherCmap otherReadable same, by decide⟩

end FontFile

end Letterform
