import Letterform.Tag

/-!
Why font data cannot be read.
-/

namespace Letterform

inductive Malformation
  | repeatCount
  | negativeOffset
  | negativePrivateRange
  | headerSize
  deriving DecidableEq, Repr

def Malformation.message : Malformation → String
  | .repeatCount => "repeat count too large in glyf"
  | .negativeOffset => "negative offset in DICT"
  | .negativePrivateRange => "negative Private DICT range"
  | .headerSize => "CFF header size is out of range"

inductive ReadError
  | outOfBounds (offset : Nat)
  | invalidFormat (format : Int)
  | invalidSfnt (version : UInt32)
  | invalidArrayLength
  | tableIsMissing (tag : Tag)
  | malformed (cause : Malformation)
  deriving DecidableEq, Repr

namespace ReadError

def message : ReadError → String
  | .outOfBounds offset => s!"Offset {offset} is out of bounds"
  | .invalidFormat format => s!"Invalid format '{format}'"
  | .invalidSfnt version => s!"Invalid sfnt version 0x{Tag.upperHex 8 version.toNat}"
  | .invalidArrayLength => "Specified array length not a multiple of item size"
  | .tableIsMissing tag => s!"the {tag.text} table is missing"
  | .malformed cause => s!"Malformed data: '{cause.message}'"

end ReadError

end Letterform
