import Letterform.TrueType.Outlines

/-!
What decides which glyphs are fetched. Some fonts have placeholders for the characters
that they lack: an outline that is always the same, or a tiny mark.
-/

namespace Letterform

/-- A single contour that is smaller than this in both directions is taken for a mark. -/
def defaultTinyThreshold : UInt16 := 120

structure Settings where
  fillerHash : Option UInt64 := none
  tinyThreshold : Option UInt16 := some defaultTinyThreshold
  depthLimit : Nat := TrueType.defaultDepthLimit
  deriving DecidableEq, Repr

end Letterform
