import Letterform.Bytes.Decoder
import Letterform.FlagSet
import Letterform.GlyphId
import Letterform.Number.Fixed

/-!
Components of composite glyphs: other glyphs, each scaled and put in place. The
place is an offset, or a point of the component that has to meet a point of what
is already there. The list of components ends with the first one that does not
announce another; instructions may follow it.
-/

namespace Letterform.TrueType

abbrev ComponentFlags := FlagSet 16 0x1FFF

namespace ComponentFlags

def wordArguments : ComponentFlags := .ofBits 0x0001
def offsetArguments : ComponentFlags := .ofBits 0x0002
def uniformScale : ComponentFlags := .ofBits 0x0008
def moreComponents : ComponentFlags := .ofBits 0x0020
def axisScales : ComponentFlags := .ofBits 0x0040
def matrix : ComponentFlags := .ofBits 0x0080
def instructions : ComponentFlags := .ofBits 0x0100

end ComponentFlags

instance : Packed ComponentFlags :=
  Packed.through (fun flags => UInt16.ofBitVec flags.bits) (fun word => .ofBits word.toBitVec)
    FlagSet.ofBits_bits

inductive Anchor
  | offset (x y : Int16)
  | points (base component : UInt16)
  deriving DecidableEq, Repr

/-- A linear map: `x` goes to `(xx, yx)` and `y` to `(xy, yy)`. -/
structure Transform where
  xx : F2Dot14
  yx : F2Dot14
  xy : F2Dot14
  yy : F2Dot14
  deriving DecidableEq, Repr

def Transform.identity : Transform := ⟨.one, .zero, .zero, .one⟩

structure Component where
  flags : ComponentFlags
  glyph : GlyphId
  anchor : Anchor
  transform : Transform
  deriving DecidableEq, Repr

namespace Component

def anchorDecoder (flags : ComponentFlags) : Decoder ReadError Anchor :=
  match flags.contains ComponentFlags.offsetArguments,
    flags.contains ComponentFlags.wordArguments with
  | true, true => do
      let x : Int16 ← Decoder.read Int16
      let y : Int16 ← Decoder.read Int16
      return .offset x y
  | true, false => do
      let x : Int8 ← Decoder.read Int8
      let y : Int8 ← Decoder.read Int8
      return .offset x.toInt16 y.toInt16
  | false, true => do
      let base : UInt16 ← Decoder.read UInt16
      let component : UInt16 ← Decoder.read UInt16
      return .points base component
  | false, false => do
      let base : UInt8 ← Decoder.read UInt8
      let component : UInt8 ← Decoder.read UInt8
      return .points base.toUInt16 component.toUInt16

def transformDecoder (flags : ComponentFlags) : Decoder ReadError Transform :=
  if flags.contains ComponentFlags.uniformScale then do
    let scale : F2Dot14 ← Decoder.read F2Dot14
    return ⟨scale, .zero, .zero, scale⟩
  else if flags.contains ComponentFlags.axisScales then do
    let xScale : F2Dot14 ← Decoder.read F2Dot14
    let yScale : F2Dot14 ← Decoder.read F2Dot14
    return ⟨xScale, .zero, .zero, yScale⟩
  else if flags.contains ComponentFlags.matrix then do
    let xx : F2Dot14 ← Decoder.read F2Dot14
    let yx : F2Dot14 ← Decoder.read F2Dot14
    let xy : F2Dot14 ← Decoder.read F2Dot14
    let yy : F2Dot14 ← Decoder.read F2Dot14
    return ⟨xx, yx, xy, yy⟩
  else pure .identity

def decoder : Decoder ReadError Component := do
  let flags : ComponentFlags ← Decoder.read ComponentFlags
  let glyph : GlyphId ← Decoder.read GlyphId
  let anchor ← anchorDecoder flags
  let transform ← transformDecoder flags
  return ⟨flags, glyph, anchor, transform⟩

theorem decoder_advances : decoder.Advances := Decoder.Advances.bind Decoder.Advances.read _

def announcesMore (component : Component) : Bool :=
  component.flags.contains ComponentFlags.moreComponents

end Component

/-- The components from a cursor on, and the cursor after them. A fault ends the list. -/
def componentsFrom (cursor : Cursor) : List (Except ReadError Component) × Cursor :=
  match _step : Component.decoder.run cursor with
  | (.error error, next) => ([.error error], next)
  | (.ok component, next) =>
      if component.announcesMore then
        let (components, last) := componentsFrom next
        (.ok component :: components, last)
      else ([.ok component], next)
termination_by cursor.rest.length
decreasing_by exact Component.decoder_advances _ _ _ _step

def instructionsAfter (components : List (Except ReadError Component)) (cursor : Cursor) :
    Option Bytes :=
  match components.getLast? with
  | some (.ok component) =>
      if component.flags.contains ComponentFlags.instructions then
        (do Decoder.takeBytes (← Decoder.read UInt16).toNat : Decoder ReadError Bytes).run cursor
          |>.1.toOption
      else none
  | _ => none

/-! Writing. -/

inductive ComponentScale
  | none
  | uniform (scale : F2Dot14)
  | axes (x y : F2Dot14)
  | matrix (xx yx xy yy : F2Dot14)
  deriving DecidableEq, Repr

namespace ComponentScale

def flags : ComponentScale → ComponentFlags
  | .none => .empty
  | .uniform _ => ComponentFlags.uniformScale
  | .axes _ _ => ComponentFlags.axisScales
  | .matrix _ _ _ _ => ComponentFlags.matrix

def values : ComponentScale → List F2Dot14
  | .none => []
  | .uniform scale => [scale]
  | .axes x y => [x, y]
  | .matrix xx yx xy yy => [xx, yx, xy, yy]

def transform : ComponentScale → Transform
  | .none => .identity
  | .uniform scale => ⟨scale, .zero, .zero, scale⟩
  | .axes x y => ⟨x, .zero, .zero, y⟩
  | .matrix xx yx xy yy => ⟨xx, yx, xy, yy⟩

end ComponentScale

structure StoredComponent where
  glyph : GlyphId
  first : Int16
  second : Int16
  matchesPoints : Bool := false
  scale : ComponentScale := .none
  deriving DecidableEq, Repr

namespace StoredComponent

def fitsByte (value : Int16) : Bool := value.toInt8.toInt16 = value

def needsWords (component : StoredComponent) : Bool :=
  !(fitsByte component.first && fitsByte component.second)

def flags (component : StoredComponent) (hasMore : Bool) : ComponentFlags :=
  let choose (present : Bool) (flag : ComponentFlags) := if present then flag else .empty
  choose component.needsWords ComponentFlags.wordArguments ∪
    choose (!component.matchesPoints) ComponentFlags.offsetArguments ∪
    choose hasMore ComponentFlags.moreComponents ∪ component.scale.flags

def encode (component : StoredComponent) (hasMore : Bool) : Bytes :=
  Packed.encode (component.flags hasMore) ++ Packed.encode component.glyph ++
    (if component.needsWords then Packed.encodeList [component.first, component.second]
    else Packed.encodeList [component.first.toInt8, component.second.toInt8]) ++
    Packed.encodeList component.scale.values

def encodeList : List StoredComponent → Bytes
  | [] => []
  | component :: components =>
      component.encode (!components.isEmpty) ++ encodeList components

end StoredComponent

end Letterform.TrueType
