import Letterform.Proofs.Bytes.Reading
import Letterform.Sample.TrueTypeFont
import Letterform.Session

/-!
Sessions answer as the fonts do that they were opened on. Whatever a session has been
asked before, it remembers nothing but what the font says, so that no answer depends on
the questions in front of it.
-/

namespace Letterform

/-! Questions to a session and what the font says to them. -/

namespace Session

inductive Request
  | glyphId (character : Char)
  | supports (character : Char)
  | fetch (character : Char)
  | fetchJson (character : Char)
  deriving DecidableEq, Repr

inductive Answer
  | glyphId (found : Option GlyphId)
  | supports (isMapped : Bool)
  | fetch (found : Except FetchFault (Option CharacterGlyph))
  | fetchJson (found : Except FetchFault (Option String))

def Answer.fault? : Answer → Option FetchFault
  | .fetch (.error fault) | .fetchJson (.error fault) => some fault
  | _ => none

def Request.ask : Request → Lookup Answer
  | .glyphId character => do return .glyphId (← Session.glyphId? character)
  | .supports character => do return .supports (← Session.supports character)
  | .fetch character => do return .fetch (← Session.fetch character)
  | .fetchJson character => do return .fetchJson (← Session.fetchJson character)

end Session

namespace GlyphSource

def fetchJson (source : GlyphSource) (character : Char) : Except FetchFault (Option String) :=
  (source.fetch character).map fun glyph => glyph.map CharacterGlyph.json

def answer (source : GlyphSource) : Session.Request → Session.Answer
  | .glyphId character => .glyphId (source.glyphId? character)
  | .supports character => .supports (source.glyphId? character).isSome
  | .fetch character => .fetch (source.fetch character)
  | .fetchJson character => .fetchJson (source.fetchJson character)

theorem fetch_of_glyphId {source : GlyphSource} {character : Char} {glyph : GlyphId}
    (mapped : source.glyphId? character = some glyph) :
    source.fetch character = source.load character glyph := by
  rw [fetch, mapped]

theorem fetch_of_none {source : GlyphSource} {character : Char}
    (unmapped : source.glyphId? character = none) : source.fetch character = .ok none := by
  rw [fetch, unmapped]

end GlyphSource

namespace Session

/-! What is remembered. -/

/-- Identifiers are those of the character map, and glyphs are those that are loaded for their
characters. -/
structure IsFaithful (session : Session) : Prop where
  identifiers : ∀ code found, session.identifiers[code]? = some found →
    found = session.source.characterMap.glyph? code
  glyphs : ∀ code found, session.glyphs[code]? = some found →
    ∃ character glyph, character.val = code ∧
      session.source.characterMap.glyph? code = some glyph ∧
      session.source.load character glyph = .ok found

/-- A session that goes on from another one: on the same font, and faithful to it. -/
structure Continues (before after : Session) : Prop where
  source : after.source = before.source
  faithful : after.IsFaithful

variable {session : Session}

theorem isFaithful_opened (source : GlyphSource) : IsFaithful { source } where
  identifiers code found remembered := by simp at remembered
  glyphs code found remembered := by simp at remembered

theorem IsFaithful.insertIdentifier (faithful : session.IsFaithful) (code : UInt32) :
    IsFaithful { session with
      identifiers := session.identifiers.insert code
        (session.source.characterMap.glyph? code) } where
  identifiers other found remembered := by
    rw [Std.HashMap.getElem?_insert] at remembered
    split at remembered
    · next same =>
        cases remembered
        rw [eq_of_beq same]
    · exact faithful.identifiers other found remembered
  glyphs := faithful.glyphs

theorem IsFaithful.insertGlyph (faithful : session.IsFaithful) {character : Char}
    {glyph : GlyphId} {found : Option CharacterGlyph}
    (mapped : session.source.glyphId? character = some glyph)
    (loaded : session.source.load character glyph = .ok found) :
    IsFaithful { session with glyphs := session.glyphs.insert character.val found } where
  identifiers := faithful.identifiers
  glyphs code other remembered := by
    rw [Std.HashMap.getElem?_insert] at remembered
    split at remembered
    · next same =>
        cases remembered
        cases eq_of_beq same
        exact ⟨character, glyph, rfl, mapped, loaded⟩
    · exact faithful.glyphs code other remembered

/-! One question. -/

theorem run_bind {α β : Type} (first : Lookup α) (next : α → Lookup β) (session : Session) :
    (first >>= next).run session = (next (first.run session).1).run (first.run session).2 :=
  rfl

theorem run_get (session : Session) : (get : Lookup Session).run session = (session, session) :=
  rfl

/-- A lookup with its result, after which the session goes on. Under a condition, it adds no
glyph. -/
def Yields {α : Type} (session : Session) (lookup : Lookup α) (result : α) (keeps : Prop) : Prop :=
  ∃ after, lookup.run session = (result, after) ∧ session.Continues after ∧
    (keeps → after.glyphs = session.glyphs)

theorem Yields.map {α β : Type} {lookup : Lookup α} {result : α} {keeps stronger : Prop}
    (yields : session.Yields lookup result keeps) (convert : α → β) (implies : stronger → keeps) :
    session.Yields (do return convert (← lookup)) (convert result) stronger := by
  rcases yields with ⟨after, found, continued, unchanged⟩
  refine ⟨after, ?_, continued, fun condition => unchanged (implies condition)⟩
  rw [run_bind, found]
  rfl

theorem glyphId?_of_remembered {character : Char} {found : Option GlyphId}
    (remembered : session.identifiers[character.val]? = some found) :
    (glyphId? character).run session = (found, session) := by
  simp only [glyphId?, run_bind, run_get, remembered]
  rfl

theorem glyphId?_of_missing {character : Char}
    (missing : session.identifiers[character.val]? = none) :
    (glyphId? character).run session =
      (session.source.glyphId? character, { session with
        identifiers := session.identifiers.insert character.val
          (session.source.glyphId? character) }) := by
  simp only [glyphId?, run_bind, run_get, missing]
  rfl

theorem glyphId?_yields (faithful : session.IsFaithful) (character : Char) :
    session.Yields (glyphId? character) (session.source.glyphId? character) True := by
  cases remembered : session.identifiers[character.val]? with
  | some found =>
      have same : found = session.source.glyphId? character :=
        faithful.identifiers _ _ remembered
      exact ⟨session, same ▸ glyphId?_of_remembered remembered, ⟨rfl, faithful⟩, fun _ => rfl⟩
  | none =>
      exact ⟨_, glyphId?_of_missing remembered,
        ⟨rfl, faithful.insertIdentifier character.val⟩, fun _ => rfl⟩

def fetchGlyph (character : Char) (glyph : GlyphId) :
    Lookup (Except FetchFault (Option CharacterGlyph)) := do
  let session ← get
  match session.glyphs[character.val]? with
  | some found => return .ok found
  | none =>
      match session.source.load character glyph with
      | .ok found =>
          set { session with glyphs := session.glyphs.insert character.val found }
          return .ok found
      | .error fault => return .error fault

theorem fetch_eq (character : Char) :
    fetch character = (do
      match ← glyphId? character with
      | some glyph => fetchGlyph character glyph
      | none => return .ok none) := by
  apply congrArg (glyphId? character >>= ·)
  funext found
  cases found with
  | none => rfl
  | some glyph => rfl

theorem fetchGlyph_yields (faithful : session.IsFaithful) {character : Char} {glyph : GlyphId}
    (mapped : session.source.glyphId? character = some glyph) :
    session.Yields (fetchGlyph character glyph) (session.source.load character glyph)
      (∃ fault, session.source.load character glyph = .error fault) := by
  cases remembered : session.glyphs[character.val]? with
  | some found =>
      rcases faithful.glyphs _ _ remembered with ⟨other, otherGlyph, sameCode, otherMapped, loaded⟩
      -- A character is known by its code point.
      have sameCharacter : other = character := Char.ext sameCode
      have sameGlyph : otherGlyph = glyph := Option.some.inj (otherMapped.symm.trans mapped)
      rw [sameCharacter, sameGlyph] at loaded
      rw [loaded]
      refine ⟨session, ?_, ⟨rfl, faithful⟩, fun _ => rfl⟩
      simp only [fetchGlyph, run_bind, run_get, remembered]
      rfl
  | none =>
      simp only [Yields, fetchGlyph, run_bind, run_get, remembered]
      cases loaded : session.source.load character glyph with
      | ok found => exact ⟨_, rfl, ⟨rfl, faithful.insertGlyph mapped loaded⟩, nofun⟩
      | error fault => exact ⟨session, rfl, ⟨rfl, faithful⟩, fun _ => rfl⟩

/-- The glyph is the one of the font, and a fault leaves the glyphs as they are. -/
theorem fetch_yields (faithful : session.IsFaithful) (character : Char) :
    session.Yields (fetch character) (session.source.fetch character)
      (∃ fault, session.source.fetch character = .error fault) := by
  rcases glyphId?_yields faithful character with ⟨middle, identified, ⟨source, kept⟩, glyphs⟩
  cases mapped : session.source.glyphId? character with
  | none =>
      rw [GlyphSource.fetch_of_none mapped]
      refine ⟨middle, ?_, ⟨source, kept⟩, fun _ => glyphs trivial⟩
      rw [fetch_eq, run_bind, identified, mapped]
      rfl
  | some glyph =>
      rw [GlyphSource.fetch_of_glyphId mapped, ← source]
      rcases fetchGlyph_yields kept (source ▸ mapped) with ⟨after, fetched, continued, unchanged⟩
      refine ⟨after, ?_, ⟨continued.source.trans source, continued.faithful⟩,
        fun faulty => (unchanged faulty).trans (glyphs trivial)⟩
      rw [fetch_eq, run_bind, identified, mapped]
      exact fetched

theorem error_of_fault? {found : Except FetchFault (Option CharacterGlyph)} {fault : FetchFault}
    (isFault : (Answer.fetch found).fault? = some fault) : found = .error fault := by
  cases found with
  | ok glyph => cases isFault
  | error other => exact congrArg Except.error (Option.some.inj isFault)

theorem error_of_fault?_json {found : Except FetchFault (Option CharacterGlyph)}
    {fault : FetchFault}
    (isFault : (Answer.fetchJson (found.map fun glyph => glyph.map CharacterGlyph.json)).fault? =
      some fault) : found = .error fault := by
  cases found with
  | ok glyph => cases isFault
  | error other => exact congrArg Except.error (Option.some.inj isFault)

theorem ask_yields (faithful : session.IsFaithful) (request : Request) :
    session.Yields request.ask (session.source.answer request)
      (∃ fault, (session.source.answer request).fault? = some fault) := by
  cases request with
  | glyphId character =>
      exact (glyphId?_yields faithful character).map Answer.glyphId fun _ => trivial
  | supports character =>
      have supported : session.Yields (supports character) _ True :=
        (glyphId?_yields faithful character).map Option.isSome id
      exact supported.map Answer.supports fun _ => trivial
  | fetch character =>
      exact (fetch_yields faithful character).map Answer.fetch fun ⟨fault, isFault⟩ =>
        ⟨fault, error_of_fault? isFault⟩
  | fetchJson character =>
      have fetched : session.Yields (fetchJson character) (session.source.fetchJson character)
          (∃ fault, session.source.fetch character = .error fault) :=
        (fetch_yields faithful character).map (Except.map (Option.map CharacterGlyph.json)) id
      exact fetched.map Answer.fetchJson fun ⟨fault, isFault⟩ =>
        ⟨fault, error_of_fault?_json isFault⟩

/-! Any number of questions. -/

theorem askAll_run (faithful : session.IsFaithful) (requests : List Request) :
    ∃ after, (requests.mapM Request.ask).run session =
        (requests.map session.source.answer, after) ∧ session.Continues after := by
  induction requests generalizing session with
  | nil => exact ⟨session, rfl, rfl, faithful⟩
  | cons request requests induction =>
      rcases ask_yields faithful request with ⟨middle, answered, ⟨source, kept⟩, -⟩
      rcases induction kept with ⟨after, answeredAll, continued⟩
      refine ⟨after, ?_, continued.source.trans source, continued.faithful⟩
      rw [List.mapM_cons, run_bind, answered, run_bind, answeredAll, source]
      rfl

end Session

/-! Glyphs. -/

/-- What is true of every glyph that the font has for a character. -/
structure CharacterGlyph.IsGenuine (source : GlyphSource) (character : Char)
    (glyph : CharacterGlyph) : Prop where
  mapped : source.glyphId? character = some glyph.glyph
  nonzero : glyph.glyph.toNat ≠ 0
  hash : glyph.hash = fnv1a glyph.outline.compactText.toUTF8.toList
  notFiller : source.settings.fillerHash ≠ some glyph.hash
  bounds : glyph.bounds = glyph.outline.bounds

structure CharacterGlyph.Shows (found : CharacterGlyph) (glyph : GlyphId) (shape : GlyphShape) :
    Prop where
  glyph : found.glyph = glyph
  outline : found.outline = shape.outline
  bounds : found.bounds = shape.outline.bounds
  hash : found.hash = outlineHash shape.outline
  extent : shape.extent? = some found.extent

theorem CharacterMap.nonzero_of_glyph {map : CharacterMap} {code : UInt32} {glyph : GlyphId}
    (mapped : map.glyph? code = some glyph) : glyph.toNat ≠ 0 := by
  have notNotdef : glyph.isNotdef = false := by
    rcases Option.or_eq_some_iff.mp mapped with basic | ⟨-, full⟩
    · simpa using (Option.filter_eq_some_iff.mp basic).2
    · simpa using (Option.filter_eq_some_iff.mp full).2
  intro zero
  have isNotdef : glyph = .notdef := congrArg GlyphId.mk (UInt16.toNat_inj.mp zero)
  rw [isNotdef] at notNotdef
  cases notNotdef

namespace GlyphSource

variable {source : GlyphSource} {character : Char} {glyph : GlyphId} {found : CharacterGlyph}

theorem shows_of_assemble {shape : GlyphShape}
    (assembled : source.assemble character glyph shape = .ok found) : found.Shows glyph shape := by
  rw [assemble] at assembled
  split at assembled
  · cases assembled
  · next extent measured =>
      cases assembled
      exact ⟨rfl, rfl, rfl, rfl, measured⟩

theorem exists_shape_of_decode (decoded : source.decode character glyph = .ok (some found)) :
    ∃ shape, source.shape glyph = .ok (some shape) ∧ found.Shows glyph shape := by
  rcases exists_ok_of_bind decoded with ⟨shape, shaped, rest⟩
  cases shape with
  | none => cases rest
  | some shape =>
      rcases exists_ok_of_bind rest with ⟨made, assembled, equal⟩
      cases equal
      exact ⟨shape, shaped, shows_of_assemble assembled⟩

theorem decode_of_load (loaded : source.load character glyph = .ok (some found)) :
    source.decode character glyph = .ok (some found) ∧ source.isFiller found = false := by
  rcases exists_ok_of_bind loaded with ⟨decoded, equal, filtered⟩
  rcases Option.filter_eq_some_iff.mp (Except.ok.inj filtered) with ⟨isDecoded, notFiller⟩
  rw [equal, isDecoded]
  exact ⟨rfl, by simpa using notFiller⟩

theorem isGenuine_of_fetch (fetched : source.fetch character = .ok (some found)) :
    found.IsGenuine source character := by
  cases mapped : source.glyphId? character with
  | none =>
      rw [fetch_of_none mapped] at fetched
      cases fetched
  | some glyph =>
      rw [fetch_of_glyphId mapped] at fetched
      rcases decode_of_load fetched with ⟨decoded, notFiller⟩
      rcases exists_shape_of_decode decoded with ⟨shape, -, shows⟩
      have sameMapped : source.glyphId? character = some found.glyph := shows.glyph ▸ mapped
      refine ⟨sameMapped, CharacterMap.nonzero_of_glyph sameMapped, ?hash, ?notFiller, ?bounds⟩
      case hash =>
        rw [shows.hash, shows.outline]
        rfl
      case notFiller => simpa [isFiller] using notFiller
      case bounds => rw [shows.bounds, shows.outline]

end GlyphSource

/-! Sessions that are opened on a font. -/

namespace Session

theorem isFaithful_of_ofBytes {bytes : Bytes} {name : String} {settings : Settings}
    {session : Session} (opened : ofBytes bytes name settings = .ok session) :
    session.IsFaithful := by
  rcases exists_ok_of_bind opened with ⟨source, -, equal⟩
  cases equal
  exact isFaithful_opened source

/-- Whatever a session has been asked, it answers like one that has just been opened. It
remembers only what the font says, faults leave its glyphs as they are, and the glyphs that
it gives are those of their characters and not placeholders. -/
theorem answers_fresh {bytes : Bytes} {name : String} {settings : Settings} {session : Session}
    (opened : ofBytes bytes name settings = .ok session) (requests : List Request) :
    ∃ after, (requests.mapM Request.ask).run session =
        (requests.map fun request => (request.ask.run session).1, after) ∧
      session.Continues after ∧
      (∀ (request : Request) (fault : FetchFault),
        (request.ask.run after).1.fault? = some fault →
          (request.ask.run after).2.glyphs = after.glyphs) ∧
      ∀ character glyph, ((fetch character).run after).1 = .ok (some glyph) →
        glyph.IsGenuine session.source character := by
  have faithful : session.IsFaithful := isFaithful_of_ofBytes opened
  have fresh : (fun request : Request => (request.ask.run session).1) =
      session.source.answer := by
    funext request
    rcases ask_yields faithful request with ⟨next, answered, -⟩
    rw [answered]
  rcases askAll_run faithful requests with ⟨after, answered, continued⟩
  refine ⟨after, by rw [answered, fresh], continued, ?_, ?_⟩
  · intro request fault isFault
    rcases ask_yields continued.faithful request with ⟨next, asked, -, unchanged⟩
    rw [asked] at isFault ⊢
    exact unchanged ⟨fault, isFault⟩
  · intro character glyph given
    rcases fetch_yields continued.faithful character with ⟨next, fetched, -⟩
    rw [fetched, continued.source] at given
    exact GlyphSource.isGenuine_of_fetch given

/-- One glyph is asked for twice, and one contains itself. -/
theorem answers_fresh_sample :
    let requests : List Request := [.fetch 'A', .fetchJson 'F', .supports '?', .fetch 'A']
    ∃ session, ofBytes (Sample.trueTypeFont .short) "Sample" {} = .ok session ∧
      ∃ after, (requests.mapM Request.ask).run session =
          (requests.map fun request => (request.ask.run session).1, after) ∧
        session.Continues after := by
  intro requests
  have isOpened : (ofBytes (Sample.trueTypeFont .short) "Sample" {}).isOk = true := by
    decide +kernel
  cases opened : ofBytes (Sample.trueTypeFont .short) "Sample" {} with
  | error fault =>
      rw [opened] at isOpened
      cases isOpened
  | ok session =>
      rcases answers_fresh opened requests with ⟨after, answered, continued, -⟩
      exact ⟨session, rfl, after, answered, continued⟩

end Session

end Letterform
