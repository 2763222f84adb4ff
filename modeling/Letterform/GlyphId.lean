import Letterform.Bytes.Packed

/-!
Glyph identifiers. Identifier 0 is reserved for characters without a glyph.
-/

namespace Letterform

structure GlyphId where
  value : UInt16
  deriving DecidableEq, Repr

namespace GlyphId

instance : Packed GlyphId :=
  Packed.through GlyphId.value GlyphId.mk fun _ => rfl

def notdef : GlyphId := ⟨0⟩

def isNotdef (glyph : GlyphId) : Bool := glyph = notdef

def toNat (glyph : GlyphId) : Nat := glyph.value.toNat

def text (glyph : GlyphId) : String := s!"GID_{glyph.value}"

end GlyphId

end Letterform
