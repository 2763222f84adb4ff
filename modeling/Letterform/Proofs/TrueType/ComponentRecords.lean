import Letterform.Proofs.Bytes.Stretches
import Letterform.Proofs.TrueType.StoredComponents

/-!
The components of any composite glyph, whatever its bytes are. The flags of a component tell how
many bytes it takes, six at least, and the next one starts where it stops. The list ends with the
first component that announces no other, or with a fault where one is cut short. Instructions are
only looked for behind a component that is whole.
-/

namespace Letterform

theorem Decoder.readBox_takes : readBox.Takes 8 fun bytes position box =>
    bytes.HoldsFrom position [box.xMin, box.yMin, box.xMax, box.yMax] := by
  apply (Takes.read.bind fun xMin => Takes.read.bind fun yMin =>
    Takes.readPair fun xMax yMax => (⟨xMin, yMin, xMax, yMax⟩ : Box Int16)).weaken
  rintro bytes position _ - ⟨xMin, xMinStands, yMin, yMinStands, xMax, yMax, holds, rfl⟩
  exact .cons xMinStands (.cons yMinStands holds)

def Bytes.HasCounted (bytes : Bytes) (position : Nat) (counted : Bytes) : Prop :=
  ∃ length : UInt16, bytes.readAt UInt16 position = .ok length ∧
    bytes.slice? (position + 2) (position + 2 + length.toNat) = some counted

theorem Decoder.toOption_takeCounted_iff {bytes counted : Bytes} {position : Nat} :
    ((do takeBytes (← read UInt16).toNat : Decoder ReadError Bytes).run
      (bytes.cursorAt position)).1.toOption = some counted ↔
        bytes.HasCounted position counted := by
  rw [toOption_read_bind_cursorAt_iff]
  simp only [toOption_takeBytes_cursorAt]
  rfl

namespace TrueType

/-! What the flags tell. -/

namespace ComponentFlags

def argumentsLength (flags : ComponentFlags) : Nat :=
  if flags.contains wordArguments then 4 else 2

def scalesLength (flags : ComponentFlags) : Nat :=
  if flags.contains uniformScale then 2
  else if flags.contains axisScales then 4
  else if flags.contains matrix then 8
  else 0

/-- How many bytes a component takes: two for its flags, two for its glyph, and the others. -/
def recordLength (flags : ComponentFlags) : Nat :=
  4 + flags.argumentsLength + flags.scalesLength

theorem six_le_recordLength (flags : ComponentFlags) : 6 ≤ flags.recordLength := by
  unfold recordLength argumentsLength
  split <;> omega

end ComponentFlags

inductive Anchor.StandsAt (bytes : Bytes) (position : Nat) (flags : ComponentFlags) : Anchor → Prop
  | wordOffset {x y : Int16} (isOffset : flags.contains ComponentFlags.offsetArguments = true)
      (inWords : flags.contains ComponentFlags.wordArguments = true)
      (holds : bytes.HoldsFrom position [x, y]) : StandsAt bytes position flags (.offset x y)
  | byteOffset {x y : Int8} (isOffset : flags.contains ComponentFlags.offsetArguments = true)
      (inBytes : flags.contains ComponentFlags.wordArguments = false)
      (holds : bytes.HoldsFrom position [x, y]) :
      StandsAt bytes position flags (.offset x.toInt16 y.toInt16)
  | wordPoints {base component : UInt16}
      (arePoints : flags.contains ComponentFlags.offsetArguments = false)
      (inWords : flags.contains ComponentFlags.wordArguments = true)
      (holds : bytes.HoldsFrom position [base, component]) :
      StandsAt bytes position flags (.points base component)
  | bytePoints {base component : UInt8}
      (arePoints : flags.contains ComponentFlags.offsetArguments = false)
      (inBytes : flags.contains ComponentFlags.wordArguments = false)
      (holds : bytes.HoldsFrom position [base, component]) :
      StandsAt bytes position flags (.points base.toUInt16 component.toUInt16)

def ComponentScale.IsTold (flags : ComponentFlags) : ComponentScale → Prop
  | .uniform _ => flags.contains ComponentFlags.uniformScale = true
  | .axes _ _ =>
      flags.contains ComponentFlags.uniformScale = false ∧
      flags.contains ComponentFlags.axisScales = true
  | .matrix _ _ _ _ =>
      flags.contains ComponentFlags.uniformScale = false ∧
      flags.contains ComponentFlags.axisScales = false ∧
      flags.contains ComponentFlags.matrix = true
  | .none =>
      flags.contains ComponentFlags.uniformScale = false ∧
      flags.contains ComponentFlags.axisScales = false ∧
      flags.contains ComponentFlags.matrix = false

def Transform.StandsAt (bytes : Bytes) (position : Nat) (flags : ComponentFlags)
    (transform : Transform) : Prop :=
  ∃ scale : ComponentScale, scale.IsTold flags ∧ bytes.HoldsFrom position scale.values ∧
    transform = scale.transform

namespace Component

open ComponentFlags

theorem anchorDecoder_takes (flags : ComponentFlags) :
    (anchorDecoder flags).Takes flags.argumentsLength fun bytes position =>
      Anchor.StandsAt bytes position flags := by
  unfold anchorDecoder argumentsLength
  cases kind : flags.contains offsetArguments with
  | true =>
      cases size : flags.contains wordArguments with
      | true =>
          apply (Decoder.Takes.readPair Anchor.offset).weaken
          rintro bytes position _ - ⟨x, y, holds, rfl⟩
          exact .wordOffset kind size holds
      | false =>
          apply (Decoder.Takes.readPair fun x y : Int8 =>
            Anchor.offset x.toInt16 y.toInt16).weaken
          rintro bytes position _ - ⟨x, y, holds, rfl⟩
          exact .byteOffset kind size holds
  | false =>
      cases size : flags.contains wordArguments with
      | true =>
          apply (Decoder.Takes.readPair Anchor.points).weaken
          rintro bytes position _ - ⟨base, component, holds, rfl⟩
          exact .wordPoints kind size holds
      | false =>
          apply (Decoder.Takes.readPair fun base component : UInt8 =>
            Anchor.points base.toUInt16 component.toUInt16).weaken
          rintro bytes position _ - ⟨base, component, holds, rfl⟩
          exact .bytePoints kind size holds

theorem transformDecoder_takes (flags : ComponentFlags) :
    (transformDecoder flags).Takes flags.scalesLength fun bytes position =>
      Transform.StandsAt bytes position flags := by
  unfold transformDecoder scalesLength
  -- A flag counts only where those in front of it are missing.
  cases uniform : flags.contains uniformScale with
  | true =>
      apply (Decoder.Takes.read.bind fun scale => .pure _).weaken
      rintro bytes position _ - ⟨scale, stands, rfl⟩
      exact ⟨.uniform scale, uniform, .cons stands Bytes.holdsFrom_nil, rfl⟩
  | false =>
      cases axes : flags.contains axisScales with
      | true =>
          apply (Decoder.Takes.readPair fun x y => Transform.mk x .zero .zero y).weaken
          rintro bytes position _ - ⟨x, y, holds, rfl⟩
          exact ⟨.axes x y, ⟨uniform, axes⟩, holds, rfl⟩
      | false =>
          cases matrix : flags.contains matrix with
          | true =>
              apply (Decoder.Takes.read.bind fun xx => Decoder.Takes.read.bind fun yx =>
                Decoder.Takes.readPair fun xy yy => Transform.mk xx yx xy yy).weaken
              rintro bytes position _ - ⟨xx, xxStands, yx, yxStands, xy, yy, holds, rfl⟩
              exact ⟨.matrix xx yx xy yy, ⟨uniform, axes, matrix⟩,
                .cons xxStands (.cons yxStands holds), rfl⟩
          | false =>
              apply (Decoder.Takes.pure _).weaken
              rintro bytes position _ - rfl
              exact ⟨.none, ⟨uniform, axes, matrix⟩, Bytes.holdsFrom_nil, rfl⟩

/-! One component. -/

structure Fills (component : Component) (bytes : Bytes) (start stop : Nat) : Prop where
  flags : bytes.readAt ComponentFlags start = .ok component.flags
  glyph : bytes.readAt GlyphId (start + 2) = .ok component.glyph
  anchor : component.anchor.StandsAt bytes (start + 4) component.flags
  transform : component.transform.StandsAt bytes
    (start + 4 + component.flags.argumentsLength) component.flags
  length : stop = start + component.flags.recordLength
  within : stop ≤ bytes.length

theorem Fills.add_six_le {component : Component} {bytes : Bytes} {start stop : Nat}
    (fills : component.Fills bytes start stop) : start + 6 ≤ stop := by
  rw [fills.length]
  exact Nat.add_le_add_left component.flags.six_le_recordLength start

/-- The bytes end before the flags at a start do, or before the component that they tell of. -/
def IsCutAt (bytes : Bytes) (start : Nat) : Prop :=
  bytes.length < start + 2 ∨ ∃ flags, bytes.readAt ComponentFlags start = .ok flags ∧
    bytes.length < start + flags.recordLength

inductive IsReadAt (bytes : Bytes) (start : Nat) : Except ReadError Component × Cursor → Prop
  | whole {component : Component} {stop : Nat} (fills : component.Fills bytes start stop) :
      IsReadAt bytes start (.ok component, bytes.cursorAt stop)
  | cut {offset : Nat} {next : Cursor} (isCut : IsCutAt bytes start) (started : start ≤ offset)
      (reached : offset ≤ bytes.length) : IsReadAt bytes start (.error (.outOfBounds offset), next)

def bodyDecoder (flags : ComponentFlags) : Decoder ReadError Component := do
  let glyph : GlyphId ← Decoder.read GlyphId
  let anchor ← anchorDecoder flags
  let transform ← transformDecoder flags
  return ⟨flags, glyph, anchor, transform⟩

theorem decoder_eq : decoder = Decoder.read ComponentFlags >>= bodyDecoder := rfl

theorem bodyDecoder_takes (flags : ComponentFlags) :
    (bodyDecoder flags).Takes (2 + (flags.argumentsLength + flags.scalesLength))
      fun bytes position component => component.flags = flags ∧
        bytes.readAt GlyphId position = .ok component.glyph ∧
        component.anchor.StandsAt bytes (position + 2) flags ∧
        component.transform.StandsAt bytes (position + 2 + flags.argumentsLength) flags := by
  apply (Decoder.Takes.read.bind fun glyph => (anchorDecoder_takes flags).bind fun anchor =>
    (transformDecoder_takes flags).bind fun transform => .pure _).weaken
  rintro bytes position _ - ⟨glyph, glyphStands, anchor, anchorStands, transform, scalesStand, rfl⟩
  exact ⟨rfl, glyphStands, anchorStands, scalesStand⟩

theorem decoder_isReadAt {bytes : Bytes} {start : Nat} (inside : start ≤ bytes.length) :
    IsReadAt bytes start (decoder.run (bytes.cursorAt start)) := by
  have flagsOutcome : Decoder.IsStretch bytes start 2 _ _ :=
    Decoder.Takes.read (α := ComponentFlags) bytes start inside
  rw [decoder_eq, Decoder.run_bind]
  generalize (Decoder.read ComponentFlags).run (bytes.cursorAt start) = result at flagsOutcome
  cases flagsOutcome with
  | cut short started reached => exact .cut (.inl short) started reached
  | @whole flags within flagsStand =>
      -- Only now is it known how many bytes are behind the flags.
      have bodyOutcome := bodyDecoder_takes flags bytes (start + 2) within
      simp only
      generalize (bodyDecoder flags).run (bytes.cursorAt (start + 2)) = result at bodyOutcome
      cases bodyOutcome with
      | cut short started reached =>
          refine .cut (.inr ⟨flags, flagsStand, ?_⟩) (by omega) reached
          rw [recordLength]
          omega
      | whole within holds =>
          rcases holds with ⟨rfl, glyph, anchor, transform⟩
          refine .whole ⟨flagsStand, glyph, anchor, transform, ?_, within⟩
          rw [recordLength]
          omega

end Component

/-! All components. -/

/-- What comes of reading components from a start on: each one starts where the one in front of it
stops. The cursor is the one behind them. -/
inductive AreReadFrom (bytes : Bytes) : Nat → List (Except ReadError Component) → Cursor → Prop
  | cut {start offset : Nat} {next : Cursor} (isCut : Component.IsCutAt bytes start)
      (started : start ≤ offset) (reached : offset ≤ bytes.length) :
      AreReadFrom bytes start [.error (.outOfBounds offset)] next
  | last {component : Component} {start stop : Nat} (fills : component.Fills bytes start stop)
      (last : component.announcesMore = false) :
      AreReadFrom bytes start [.ok component] (bytes.cursorAt stop)
  | more {component : Component} {start stop : Nat} {items : List (Except ReadError Component)}
      {next : Cursor} (fills : component.Fills bytes start stop)
      (more : component.announcesMore = true) (others : AreReadFrom bytes stop items next) :
      AreReadFrom bytes start (.ok component :: items) next

theorem componentsFrom_areReadFrom {bytes : Bytes} {start : Nat} (inside : start ≤ bytes.length) :
    AreReadFrom bytes start (componentsFrom (bytes.cursorAt start)).1
      (componentsFrom (bytes.cursorAt start)).2 := by
  have outcome := Component.decoder_isReadAt inside
  generalize read : Component.decoder.run (bytes.cursorAt start) = result at outcome
  cases outcome with
  | cut isCut started reached =>
      rw [componentsFrom_of_fault read]
      exact .cut isCut started reached
  | @whole component stop fills =>
      cases announces : component.announcesMore with
      | false =>
          rw [componentsFrom_of_last read announces]
          exact .last fills announces
      | true =>
          have ahead := fills.add_six_le
          have others := componentsFrom_areReadFrom fills.within
          rw [componentsFrom_of_more read announces rfl]
          exact .more fills announces others
termination_by bytes.length - start
decreasing_by
  have within := fills.within
  omega

def itemLength : Except ReadError Component → Nat
  | .ok component => component.flags.recordLength
  | .error _ => 0

def itemStart (first : Nat) (items : List (Except ReadError Component)) (index : Nat) : Nat :=
  first + ((items.take index).map itemLength).sum

theorem Component.Fills.itemStart_cons {component : Component} {bytes : Bytes} {start stop : Nat}
    (fills : component.Fills bytes start stop) (items : List (Except ReadError Component))
    (index : Nat) : itemStart start (.ok component :: items) (index + 1) =
      itemStart stop items index := by
  rw [itemStart, itemStart, List.take_succ_cons, List.map_cons, List.sum_cons, itemLength,
    ← Nat.add_assoc, ← fills.length]

/-- What the items end with: a component that announces no other, or a fault where one is cut
short. -/
inductive IsEnd (bytes : Bytes) (stop : Nat) : Except ReadError Component → Prop
  | last {component : Component} (last : component.announcesMore = false) :
      IsEnd bytes stop (.ok component)
  | cut {offset : Nat} (isCut : Component.IsCutAt bytes stop) (started : stop ≤ offset)
      (reached : offset ≤ bytes.length) : IsEnd bytes stop (.error (.outOfBounds offset))

namespace AreReadFrom

variable {bytes : Bytes} {start : Nat} {items : List (Except ReadError Component)} {next : Cursor}
  {component : Component}

theorem ne_nil (read : AreReadFrom bytes start items next) : items ≠ [] := by
  cases read <;> exact List.cons_ne_nil _ _

/-- Every component but a cut one takes six bytes or more. -/
theorem length_le (read : AreReadFrom bytes start items next) :
    items.length ≤ (bytes.length - start) / 6 + 1 := by
  induction read with
  | cut _ _ _ => exact Nat.le_add_left _ _
  | last _ _ => exact Nat.le_add_left _ _
  | more fills _ _ induction =>
      have ahead := fills.add_six_le
      have within := fills.within
      rw [List.length_cons]
      omega

theorem others (read : AreReadFrom bytes start items next) :
    ∀ item ∈ items.dropLast, ∃ component, item = .ok component ∧
      component.announcesMore = true := by
  induction read with
  | cut _ _ _ => nofun
  | last _ _ => nofun
  | more _ more others induction =>
      rw [List.dropLast_cons_of_ne_nil others.ne_nil, List.forall_mem_cons]
      exact ⟨⟨_, rfl, more⟩, induction⟩

theorem ends (read : AreReadFrom bytes start items next) :
    ∃ item, items.getLast? = some item ∧
      IsEnd bytes (itemStart start items items.length) item := by
  induction read with
  | cut isCut started reached => exact ⟨_, rfl, .cut isCut started reached⟩
  | last _ last => exact ⟨_, rfl, .last last⟩
  | more fills _ _ induction =>
      rcases induction with ⟨item, last, isEnd⟩
      rw [List.getLast?_cons, last, List.length_cons, fills.itemStart_cons]
      exact ⟨item, rfl, isEnd⟩

theorem fills {index : Nat} (read : AreReadFrom bytes start items next)
    (found : items[index]? = some (.ok component)) :
    component.Fills bytes (itemStart start items index) (itemStart start items (index + 1)) := by
  induction read generalizing index with
  | cut _ _ _ => cases index <;> cases found
  | last fills _ =>
      cases index with
      | zero =>
          cases found
          rwa [fills.itemStart_cons]
      | succ index => cases found
  | more fills _ _ induction =>
      cases index with
      | zero =>
          cases found
          rwa [fills.itemStart_cons]
      | succ index =>
          rw [fills.itemStart_cons, fills.itemStart_cons]
          exact induction found

theorem error_not_mem (read : AreReadFrom bytes start items next)
    (last : items.getLast? = some (.ok component)) (fault : ReadError) : .error fault ∉ items := by
  intro member
  rw [← List.dropLast_append_getLast? _ last, List.mem_append, List.mem_singleton] at member
  rcases member with early | final
  · rcases read.others _ early with ⟨component, equal, -⟩
    cases equal
  · cases final

theorem cursor_eq (read : AreReadFrom bytes start items next)
    (last : items.getLast? = some (.ok component)) :
    next = bytes.cursorAt (itemStart start items items.length) := by
  induction read with
  | cut _ _ _ => cases last
  | last fills _ =>
      rw [List.length_singleton, fills.itemStart_cons]
      rfl
  | more fills _ others induction =>
      rw [List.getLast?_cons_of_ne_nil others.ne_nil] at last
      rw [List.length_cons, fills.itemStart_cons]
      exact induction last

end AreReadFrom

/-! Composite glyphs. -/

theorem instructionsAfter_eq_some_iff {bytes instructions : Bytes} {stop : Nat}
    {component : Component} {items : List (Except ReadError Component)}
    (last : items.getLast? = some (.ok component)) :
    instructionsAfter items (bytes.cursorAt stop) = some instructions ↔
      component.flags.contains ComponentFlags.instructions = true ∧
        bytes.HasCounted stop instructions := by
  simp only [instructionsAfter, last]
  split
  · next announced => rw [and_iff_right announced, Decoder.toOption_takeCounted_iff]
  · next absent =>
      refine iff_of_false ?_ fun found => absent found.1
      intro impossible
      cases impossible

theorem Glyph.ofBytes_of_negative {bytes : Bytes} {contourCount : Int16}
    (start : bytes.readAt Int16 0 = .ok contourCount) (negative : contourCount < 0)
    (long : headerLength ≤ bytes.length) :
    ∃ box, bytes.HoldsFrom 2 [box.xMin, box.yMin, box.xMax, box.yMax] ∧
      ofBytes bytes = .ok (.composite ⟨contourCount, box, bytes.cursorAt headerLength⟩) := by
  have width : Packed.width Int16 = 2 := rfl
  have outcome := Decoder.readBox_takes bytes 2 (Nat.le_trans (by decide) long)
  rw [ofBytes_eq start long, Decoder.decode, ← Bytes.cursorAt_zero, decoder, Decoder.run_bind,
    Decoder.read_cursorAt_of_readAt start, width]
  simp only
  rw [Decoder.run_bind]
  generalize Decoder.readBox.run (bytes.cursorAt 2) = result at outcome
  cases outcome with
  | cut short _ _ => exact absurd long (Nat.not_le.mpr short)
  | @whole box _ holds =>
      have placed : bytes.cursorAt (2 + 8) =
          { rest := bytes.drop headerLength, position := headerLength } :=
        Bytes.cursorAt_of_le long
      refine ⟨box, holds, ?_⟩
      simp only
      rw [if_neg (Int16.not_le.mpr negative), placed, Bytes.cursorAt_of_le long]
      rfl

namespace CompositeGlyph

/-- Where the component at an index starts. The first one follows the header. -/
def componentStart (glyph : CompositeGlyph) (index : Nat) : Nat :=
  itemStart Glyph.headerLength glyph.components index

/-- Where the last component stops. If that one is cut short, this is where it starts. -/
def componentsStop (glyph : CompositeGlyph) : Nat :=
  glyph.componentStart glyph.components.length

structure InstructionsFollow (glyph : CompositeGlyph) (bytes instructions : Bytes) : Prop where
  whole : ∀ fault, .error fault ∉ glyph.components
  announced : ∃ component, glyph.components.getLast? = some (.ok component) ∧
    component.flags.contains ComponentFlags.instructions = true
  counted : bytes.HasCounted glyph.componentsStop instructions

theorem instructions?_eq_some_iff {glyph : CompositeGlyph} {bytes instructions : Bytes}
    {next : Cursor} (read : AreReadFrom bytes Glyph.headerLength glyph.components next)
    (behind : (componentsFrom glyph.body).2 = next) :
    glyph.instructions? = some instructions ↔ glyph.InstructionsFollow bytes instructions := by
  have after : glyph.instructions? = instructionsAfter glyph.components next := by
    rw [← behind]
    rfl
  rw [after]
  rcases read.ends with ⟨item, last, -⟩
  cases item with
  | error fault =>
      have none : instructionsAfter glyph.components next = none := by
        rw [instructionsAfter, last]
      have member := List.mem_of_getLast? last
      refine iff_of_false ?_ fun follow => follow.whole fault member
      rw [none]
      intro impossible
      cases impossible
  | ok component =>
      rw [read.cursor_eq last, instructionsAfter_eq_some_iff last]
      constructor
      · rintro ⟨announced, counted⟩
        exact ⟨read.error_not_mem last, ⟨component, last, announced⟩, counted⟩
      · rintro ⟨-, ⟨other, otherLast, announced⟩, counted⟩
        cases last.symm.trans otherLast
        exact ⟨announced, counted⟩

/-- The components of a glyph and its instructions stand in its bytes one behind the other. -/
structure IsSpelledBy (glyph : CompositeGlyph) (bytes : Bytes) : Prop where
  length_le : glyph.components.length ≤ (bytes.length - Glyph.headerLength) / 6 + 1
  others : ∀ item ∈ glyph.components.dropLast,
    ∃ component, item = .ok component ∧ component.announcesMore = true
  ends : ∃ item, glyph.components.getLast? = some item ∧ IsEnd bytes glyph.componentsStop item
  fills : ∀ (index : Nat) (component : Component),
    glyph.components[index]? = some (.ok component) →
      component.Fills bytes (glyph.componentStart index) (glyph.componentStart (index + 1))
  instructions : ∀ instructions : Bytes,
    glyph.instructions? = some instructions ↔ glyph.InstructionsFollow bytes instructions

/-- Bytes with a whole header and a negative number of contours are a composite glyph. Reading its
components ends after one for every six bytes at most, and one that is cut short. All but the last
announce another, each starts where the one in front of it stops, and the instructions, if there
are any, are those that are counted right behind the last one. -/
theorem exists_isSpelledBy {bytes : Bytes} {contourCount : Int16}
    (start : bytes.readAt Int16 0 = .ok contourCount) (negative : contourCount < 0)
    (long : Glyph.headerLength ≤ bytes.length) :
    ∃ glyph, Glyph.ofBytes bytes = .ok (.composite glyph) ∧ glyph.IsSpelledBy bytes := by
  rcases Glyph.ofBytes_of_negative start negative long with ⟨box, -, composite⟩
  have read := componentsFrom_areReadFrom long
  refine ⟨_, composite, read.length_le, read.others, read.ends, ?fills, ?instructions⟩
  case fills => exact fun _ _ => read.fills
  case instructions => exact fun _ => instructions?_eq_some_iff read rfl

/-- An offset in words, two points in bytes with a scale for each axis, and an offset in bytes with
three bytes of instructions and one more behind it. -/
theorem exists_isSpelledBy_three :
    let bytes : Bytes := [
      0xFF, 0xFF, 0x00, 0x00, 0x00, 0x00, 0x00, 0x00, 0x00, 0x00,
      0x00, 0x23, 0x00, 0x01, 0x00, 0x0A, 0xFE, 0xD4,
      0x00, 0x60, 0x00, 0x02, 0x02, 0x07, 0x20, 0x00, 0xC0, 0x00,
      0x01, 0x02, 0x00, 0x03, 0x05, 0xFB,
      0x00, 0x03, 0xAA, 0xBB, 0xCC, 0x00]
    bytes.readAt Int16 0 = .ok (-1) ∧ (-1 : Int16) < 0 ∧ Glyph.headerLength ≤ bytes.length ∧
      ∃ glyph, Glyph.ofBytes bytes = .ok (.composite glyph) ∧ glyph.IsSpelledBy bytes := by
  intro bytes
  have start : bytes.readAt Int16 0 = .ok (-1) := by decide
  have negative : (-1 : Int16) < 0 := by decide
  have long : Glyph.headerLength ≤ bytes.length := by decide
  exact ⟨start, negative, long, exists_isSpelledBy start negative long⟩

/-- Instructions that a component tells of are not looked for if it is cut short, or the next one
that it announces is. -/
example :
    let glyph : CompositeGlyph := ⟨-1, ⟨0, 0, 0, 0⟩, .ofBytes [1, 0x22, 0, 3, 5, 0xFB, 1]⟩
    (glyph.components, glyph.instructions?) =
      ([.ok ⟨.ofBits 0x122, ⟨3⟩, .offset 5 (-5), .identity⟩, .error (.outOfBounds 6)], none) := by
  cbv

end CompositeGlyph

end TrueType

end Letterform
