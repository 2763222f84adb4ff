import Letterform.Proofs.TrueType.RoundTrip

/-!
Composite glyphs come back from their bytes. The flags of a component tell how long it is: how
its arguments are stored and which scales follow them. They are read as they were written, so
each component starts where the one in front of it ends, and the last one is the first that
does not announce another.
-/

namespace Letterform.TrueType

/-! Flags. -/

namespace ComponentFlags

def telling (needsWords isOffset hasMore : Bool) (scale : ComponentFlags) : ComponentFlags :=
  (if needsWords then wordArguments else .empty) ∪
    (if isOffset then offsetArguments else .empty) ∪
    (if hasMore then moreComponents else .empty) ∪ scale

def scales : List ComponentFlags := [.empty, uniformScale, axisScales, matrix]

theorem contains_telling : ∀ needsWords isOffset hasMore : Bool, ∀ scale ∈ scales,
    let flags := telling needsWords isOffset hasMore scale
    flags.contains wordArguments = needsWords ∧ flags.contains offsetArguments = isOffset ∧
      flags.contains moreComponents = hasMore ∧ flags.contains instructions = false ∧
      flags.contains uniformScale = decide (scale = uniformScale) ∧
      flags.contains axisScales = decide (scale = axisScales) ∧
      flags.contains matrix = decide (scale = matrix) := by
  decide

end ComponentFlags

/-! Values in one byte. -/

namespace StoredComponent

theorem toInt16_toInt8 {value : Int16} (fits : fitsByte value = true) :
    value.toInt8.toInt16 = value :=
  of_decide_eq_true fits

theorem toUInt16_toInt8 {value : Int16} (fits : fitsByte value = true) (nonnegative : 0 ≤ value) :
    value.toInt8.toUInt8.toUInt16 = value.toUInt16 := by
  have same : value.toInt8.toInt = value.toInt := by
    rw [← Int8.toInt_toInt16, toInt16_toInt8 fits]
  have nonnegativeByte : 0 ≤ value.toInt8 := by
    rw [Int8.le_iff_toInt_le, same]
    exact Int16.le_iff_toInt_le.mp nonnegative
  apply UInt16.toNat_inj.mp
  rw [UInt8.toNat_toUInt16, Int8.toNat_toUInt8_of_le nonnegativeByte,
    Int16.toNat_toUInt16_of_le nonnegative]
  exact congrArg Int.toNat same

/-! What a component is read as. -/

def anchor (component : StoredComponent) : Anchor :=
  if component.matchesPoints then .points component.first.toUInt16 component.second.toUInt16
  else .offset component.first component.second

def IsValid (component : StoredComponent) : Prop :=
  component.matchesPoints = true → 0 ≤ component.first ∧ 0 ≤ component.second

def toComponent (component : StoredComponent) (hasMore : Bool) : Component :=
  ⟨component.flags hasMore, component.glyph, component.anchor, component.scale.transform⟩

theorem flags_mem_scales (scale : ComponentScale) : scale.flags ∈ ComponentFlags.scales := by
  cases scale with
  | none => exact .head _
  | uniform _ => exact .tail _ (.head _)
  | axes _ _ => exact .tail _ (.tail _ (.head _))
  | matrix _ _ _ _ => exact .tail _ (.tail _ (.tail _ (.head _)))

theorem contains_flags (component : StoredComponent) (hasMore : Bool) :
    let flags := component.flags hasMore
    flags.contains ComponentFlags.wordArguments = component.needsWords ∧
      flags.contains ComponentFlags.offsetArguments = (!component.matchesPoints) ∧
      flags.contains ComponentFlags.moreComponents = hasMore ∧
      flags.contains ComponentFlags.instructions = false ∧
      flags.contains ComponentFlags.uniformScale =
        decide (component.scale.flags = ComponentFlags.uniformScale) ∧
      flags.contains ComponentFlags.axisScales =
        decide (component.scale.flags = ComponentFlags.axisScales) ∧
      flags.contains ComponentFlags.matrix =
        decide (component.scale.flags = ComponentFlags.matrix) :=
  ComponentFlags.contains_telling component.needsWords (!component.matchesPoints) hasMore _
    (flags_mem_scales component.scale)

def arguments (component : StoredComponent) : Bytes :=
  if component.needsWords then Packed.encodeList [component.first, component.second]
  else Packed.encodeList [component.first.toInt8, component.second.toInt8]

theorem fitsByte_of_not_needsWords {component : StoredComponent}
    (short : component.needsWords = false) :
    fitsByte component.first = true ∧ fitsByte component.second = true := by
  simpa [needsWords] using short

/-- The arguments are read in the form in which they are stored: with their signs if they are an
offset, and as the numbers that they are if they are points. -/
theorem anchorDecoder_reads {component : StoredComponent} (valid : component.IsValid)
    (hasMore : Bool) :
    (Component.anchorDecoder (component.flags hasMore)).Reads component.arguments
      component.anchor := by
  rcases component.contains_flags hasMore with ⟨words, offsets, -⟩
  unfold Component.anchorDecoder arguments anchor
  rw [words, offsets]
  cases needs : component.needsWords with
  | true =>
      cases component.matchesPoints with
      | true =>
          exact (Decoder.Reads.read component.first.toUInt16).bind
            ((Decoder.Reads.read component.second.toUInt16).bind (.pure _))
      | false =>
          exact (Decoder.Reads.read component.first).bind
            ((Decoder.Reads.read component.second).bind (.pure _))
  | false =>
      rcases fitsByte_of_not_needsWords needs with ⟨firstFits, secondFits⟩
      cases matching : component.matchesPoints with
      | true =>
          rcases valid matching with ⟨firstNonnegative, secondNonnegative⟩
          rw [← toUInt16_toInt8 firstFits firstNonnegative,
            ← toUInt16_toInt8 secondFits secondNonnegative]
          exact (Decoder.Reads.read component.first.toInt8.toUInt8).bind
            ((Decoder.Reads.read component.second.toInt8.toUInt8).bind (.pure _))
      | false =>
          have offset : Anchor.offset component.first component.second =
              .offset component.first.toInt8.toInt16 component.second.toInt8.toInt16 := by
            rw [toInt16_toInt8 firstFits, toInt16_toInt8 secondFits]
          rw [if_neg Bool.false_ne_true, if_neg Bool.false_ne_true, offset]
          exact (Decoder.Reads.read component.first.toInt8).bind
            ((Decoder.Reads.read component.second.toInt8).bind (.pure _))

theorem transformDecoder_reads (component : StoredComponent) (hasMore : Bool) :
    (Component.transformDecoder (component.flags hasMore)).Reads
      (Packed.encodeList component.scale.values) component.scale.transform := by
  rcases component.contains_flags hasMore with ⟨-, -, -, -, uniform, axes, matrix⟩
  unfold Component.transformDecoder
  rw [uniform, axes, matrix]
  cases component.scale with
  | none => exact .pure _
  | uniform scale => exact (Decoder.Reads.read scale).bind (.pure _)
  | axes x y => exact (Decoder.Reads.read x).bind ((Decoder.Reads.read y).bind (.pure _))
  | matrix xx yx xy yy =>
      exact (Decoder.Reads.read xx).bind ((Decoder.Reads.read yx).bind
        ((Decoder.Reads.read xy).bind ((Decoder.Reads.read yy).bind (.pure _))))

theorem decoder_reads {component : StoredComponent} (valid : component.IsValid)
    (hasMore : Bool) :
    Component.decoder.Reads (component.encode hasMore) (component.toComponent hasMore) := by
  have whole : Component.decoder.Reads (Packed.encode (component.flags hasMore) ++
      (Packed.encode component.glyph ++ (component.arguments ++
        (Packed.encodeList component.scale.values ++ [])))) (component.toComponent hasMore) :=
    (Decoder.Reads.read _).bind ((Decoder.Reads.read _).bind
      ((anchorDecoder_reads valid hasMore).bind
        ((transformDecoder_reads component hasMore).bind (.pure _))))
  rw [List.append_nil] at whole
  rw [encode, List.append_assoc, List.append_assoc]
  exact whole

theorem announcesMore_toComponent (component : StoredComponent) (hasMore : Bool) :
    (component.toComponent hasMore).announcesMore = hasMore :=
  (component.contains_flags hasMore).2.2.1

def toComponents : List StoredComponent → List Component
  | [] => []
  | component :: components =>
      component.toComponent (!components.isEmpty) :: toComponents components

end StoredComponent

/-! The list of components. -/

theorem componentsFrom_eq (cursor : Cursor) :
    componentsFrom cursor = match Component.decoder.run cursor with
      | (.error error, next) => ([.error error], next)
      | (.ok component, next) =>
          if component.announcesMore then
            (.ok component :: (componentsFrom next).1, (componentsFrom next).2)
          else ([.ok component], next) := by
  rw [componentsFrom]
  split <;> next found => rw [found]

theorem componentsFrom_of_fault {cursor next : Cursor} {fault : ReadError}
    (read : Component.decoder.run cursor = (.error fault, next)) :
    componentsFrom cursor = ([.error fault], next) := by
  rw [componentsFrom_eq, read]

theorem componentsFrom_of_last {cursor next : Cursor} {component : Component}
    (read : Component.decoder.run cursor = (.ok component, next))
    (last : component.announcesMore = false) :
    componentsFrom cursor = ([.ok component], next) := by
  rw [componentsFrom_eq, read]
  simp only [last, Bool.false_eq_true, if_false]

theorem componentsFrom_of_more {cursor next last : Cursor} {component : Component}
    {components : List (Except ReadError Component)}
    (read : Component.decoder.run cursor = (.ok component, next))
    (more : component.announcesMore = true)
    (others : componentsFrom next = (components, last)) :
    componentsFrom cursor = (.ok component :: components, last) := by
  rw [componentsFrom_eq, read]
  simp only [more, others, if_true]

/-- The components are read one behind the other, and the last one ends the list. -/
theorem exists_componentsFrom_encodeList {components : List StoredComponent}
    (nonempty : components ≠ []) (valid : ∀ component ∈ components, component.IsValid)
    (behind : Bytes) (position : Nat) :
    ∃ last, componentsFrom { rest := StoredComponent.encodeList components ++ behind, position } =
      ((StoredComponent.toComponents components).map .ok, last) := by
  induction components generalizing position with
  | nil => exact absurd rfl nonempty
  | cons component components induction =>
      rcases List.forall_mem_cons.mp valid with ⟨validFirst, validOthers⟩
      have reads := StoredComponent.decoder_reads validFirst (!components.isEmpty)
        (StoredComponent.encodeList components ++ behind) position
      have announces := component.announcesMore_toComponent (!components.isEmpty)
      rw [StoredComponent.encodeList, List.append_assoc]
      cases components with
      | nil => exact ⟨_, componentsFrom_of_last reads announces⟩
      | cons next components =>
          rcases induction (List.cons_ne_nil _ _) validOthers _ with ⟨last, others⟩
          exact ⟨last, componentsFrom_of_more reads announces others⟩

theorem instructionsAfter_eq_none {components : List Component}
    (without : ∀ component ∈ components,
      component.flags.contains ComponentFlags.instructions = false) (cursor : Cursor) :
    instructionsAfter (components.map .ok) cursor = none := by
  rw [instructionsAfter]
  split
  · next component last =>
      have member := List.mem_of_getLast? last
      rcases List.mem_map.mp member with ⟨_, member, same⟩
      cases same
      rw [without _ member]
      rfl
  · rfl

theorem StoredComponent.without_instructions {components : List StoredComponent}
    {component : Component} (member : component ∈ toComponents components) :
    component.flags.contains ComponentFlags.instructions = false := by
  induction components with
  | nil => cases member
  | cons stored components induction =>
      rcases List.mem_cons.mp member with rfl | member
      · exact (stored.contains_flags _).2.2.2.1
      · exact induction member

/-! Composite glyphs. -/

structure CompositeGlyph.Holds (glyph : CompositeGlyph) (box : Box Int16)
    (components : List StoredComponent) : Prop where
  contourCount : glyph.contourCount = -1
  box : glyph.box = box
  components : glyph.components = (StoredComponent.toComponents components).map .ok
  instructions : glyph.instructions? = none

def composedGlyph (box : Box Int16) (components : List StoredComponent) (padding : Bytes) :
    CompositeGlyph where
  contourCount := -1
  box := box
  body := { rest := StoredComponent.encodeList components ++ padding
            position := Glyph.headerLength }

theorem ofBytes_encodeComponents (box : Box Int16) (components : List StoredComponent) :
    ∃ padding, Glyph.ofBytes (encodeComponents box components) =
      .ok (.composite (composedGlyph box components padding)) := by
  rcases padEven_eq (Packed.encode (-1 : Int16) ++ box.encode ++
    StoredComponent.encodeList components) with ⟨padding, padded, -⟩
  have bytes : encodeComponents box components = Packed.encode (-1 : Int16) ++ (box.encode ++
      (StoredComponent.encodeList components ++ padding)) := by
    rw [encodeComponents, padded, List.append_assoc, List.append_assoc]
  have long : Glyph.headerLength ≤ (encodeComponents box components).length := by
    have boxLength : box.encode.length = 8 := rfl
    rw [bytes, List.length_append, List.length_append, Packed.length_encode, boxLength]
    show 10 ≤ 2 + (8 + _)
    omega
  have start : (encodeComponents box components).readAt Int16 0 = .ok (-1) := by
    rw [bytes]
    exact Bytes.readAt_encode _ _
  refine ⟨padding, ?_⟩
  rw [Glyph.ofBytes_eq start long, bytes, Decoder.decode, Glyph.decoder, Cursor.ofBytes,
    (Decoder.Reads.read _).run_bind, (Decoder.readBox_reads _).run_bind]
  rfl

/-- A composite glyph gives back its components: for each one in its turn the glyph, the offset
or the two points, and the scales. -/
theorem holds_of_encodeComponents (box : Box Int16) {components : List StoredComponent}
    (nonempty : components ≠ []) (valid : ∀ component ∈ components, component.IsValid) :
    ∃ glyph, Glyph.ofBytes (encodeComponents box components) = .ok (.composite glyph) ∧
      glyph.Holds box components := by
  rcases ofBytes_encodeComponents box components with ⟨padding, read⟩
  rcases exists_componentsFrom_encodeList nonempty valid padding Glyph.headerLength with
    ⟨last, found⟩
  refine ⟨_, read, rfl, rfl, ?components, ?instructions⟩
  case components => exact congrArg Prod.fst found
  case instructions =>
    rw [CompositeGlyph.instructions?, composedGlyph, found]
    exact instructionsAfter_eq_none (fun _ => StoredComponent.without_instructions) last

/-- Arguments in words and in bytes, with signs and without, and scales of different lengths. -/
theorem holds_of_encodeComponents_mixed :
    let box : Box Int16 := ⟨-5, -300, 700, 650⟩
    let components : List StoredComponent := [
      { glyph := ⟨1⟩, first := 10, second := -300 },
      { glyph := ⟨2⟩, first := -5, second := 5, scale := .axes ⟨8192⟩ ⟨-16384⟩ },
      { glyph := ⟨65535⟩, first := 100, second := 7, matchesPoints := true
        scale := .matrix ⟨1⟩ ⟨-2⟩ ⟨3⟩ ⟨-4⟩ },
      { glyph := ⟨3⟩, first := 200, second := 0, matchesPoints := true
        scale := .uniform ⟨-1⟩ }]
    components ≠ [] ∧ (∀ component ∈ components, component.IsValid) ∧
      ∃ glyph, Glyph.ofBytes (encodeComponents box components) = .ok (.composite glyph) ∧
        glyph.Holds box components := by
  intro box components
  have nonempty : components ≠ [] := List.cons_ne_nil _ _
  have valid : ∀ component ∈ components, component.IsValid := by
    unfold StoredComponent.IsValid
    decide
  exact ⟨nonempty, valid, holds_of_encodeComponents box nonempty valid⟩

end Letterform.TrueType
