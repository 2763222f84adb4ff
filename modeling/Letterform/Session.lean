import Letterform.Session.GlyphSource
import Std.Data.HashMap

/-!
Sessions remember what they have found out about a font: the glyph identifier of each
character and the glyph itself. That a character has no glyph is remembered too, but
faults are not.
-/

namespace Letterform

structure Session where
  source : GlyphSource
  identifiers : Std.HashMap UInt32 (Option GlyphId) := {}
  glyphs : Std.HashMap UInt32 (Option CharacterGlyph) := {}

namespace Session

def ofBytes (bytes : Bytes) (name : String) (settings : Settings) : Except FetchFault Session := do
  return { source := ← GlyphSource.ofBytes bytes name settings }

abbrev Lookup := StateM Session

def glyphId? (character : Char) : Lookup (Option GlyphId) := do
  let session ← get
  match session.identifiers[character.val]? with
  | some found => return found
  | none =>
      let found := session.source.glyphId? character
      set { session with identifiers := session.identifiers.insert character.val found }
      return found

def supports (character : Char) : Lookup Bool := do
  return (← glyphId? character).isSome

def fetch (character : Char) : Lookup (Except FetchFault (Option CharacterGlyph)) := do
  let some glyph ← glyphId? character | return .ok none
  let session ← get
  match session.glyphs[character.val]? with
  | some found => return .ok found
  | none =>
      match session.source.load character glyph with
      | .ok found =>
          set { session with glyphs := session.glyphs.insert character.val found }
          return .ok found
      | .error fault => return .error fault

def fetchJson (character : Char) : Lookup (Except FetchFault (Option String)) := do
  return (← fetch character).map fun glyph => glyph.map CharacterGlyph.json

end Session

end Letterform
