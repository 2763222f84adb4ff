import Letterform.Dump.Request
import Letterform.Session
import Letterform.Text.QuotedCharacter

/-!
What is printed for a request: a line for each character that has a glyph. Characters
without a glyph and glyphs that cannot be decoded are passed over, but a glyph whose extent
overflows breaks the program off.
-/

namespace Letterform.Dump

def summaryLine (glyph : CharacterGlyph) : String :=
  let number := NumberStyle.plain.text
  let bounds := glyph.bounds.map Int32.toInt
  s!"{quoteCharacter glyph.character} {glyph.glyph.text} width={number glyph.extent.advance} " ++
    s!"lsb={number glyph.extent.leftBearing} rsb={number glyph.extent.rightBearing} " ++
    s!"bounds=[{bounds.xMin}, {bounds.yMin}, {bounds.xMax}, {bounds.yMax}] " ++
    s!"hash={hexPadded 16 glyph.hash.toNat}"

def Format.line (format : Format) (glyph : CharacterGlyph) : String :=
  match format with
  | .json => glyph.json
  | .compact => glyph.outline.compactText
  | .svg => glyph.outline.absoluteText .origin
  | .summary => summaryLine glyph

/-- The lines for the characters of a text, and whether it was looked through to its end. -/
def lines (format : Format) : List Char → Session.Lookup (List String × Bool)
  | [] => return ([], true)
  | character :: characters => do
      match ← Session.fetch character with
      | .ok (some glyph) =>
          let (others, isWhole) ← lines format characters
          return (format.line glyph :: others, isWhole)
      | .error .overflow => return ([], false)
      | _ => lines format characters

structure Outcome where
  exitCode : UInt8
  output : String := ""
  error : String := ""
  deriving DecidableEq, Repr

def Outcome.failure (message : String) : Outcome :=
  { exitCode := 1, error := s!"glyphdump: {message}\n" }

def brokenOffCode : UInt8 := 101

def missingFileText : String := "No such file or directory (os error 2)"

namespace Request

def outcome (request : Request) (content : Except String Bytes) : Outcome :=
  match content with
  | .error reason => .failure s!"failed to read {request.file}: {reason}"
  | .ok bytes => match Session.ofBytes bytes request.fontName request.settings with
    | .error fault => .failure fault.message
    | .ok session =>
        let (lines, isWhole) := (lines request.format request.text.toList).run session |>.1
        let output := String.join (lines.map (· ++ "\n"))
        if isWhole then { exitCode := 0, output }
        else { exitCode := brokenOffCode, output, error := FetchFault.overflow.message ++ "\n" }

end Request

def usage : String :=
  "Usage: glyphdump [--format json|compact|svg|summary] [--filler-hash HASH] " ++
    "[--no-tiny-glyph-filter] FONT TEXT\n"

def Outcome.misuse : Outcome := { exitCode := 2, error := usage }

end Letterform.Dump
