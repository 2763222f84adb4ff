import Letterform.Proofs.Bytes.Reading
import Letterform.Proofs.Cff.Index
import Letterform.TrueType.Locations
import Mathlib.Data.List.Basic

/-!
Glyphs that are found where they were put. A table of locations holds the running sums of the
lengths of the glyphs, in halves if it is short, so that each glyph lies between two of them.
A glyph without bytes starts where the next one does and is absent.
-/

namespace Letterform

theorem Packed.decodeList_flatMap {α β : Type} [Packed α] {values : List β} {write : β → Bytes}
    {stored : β → α} (same : ∀ value ∈ values, write value = encode (stored value)) :
    decodeList α ((values.flatMap write).length / width α) (values.flatMap write) =
      values.map stored := by
  have written : values.flatMap write = encodeList (values.map stored) := by
    rw [encodeList, List.flatMap_map]
    exact List.flatMap_congr same
  have count : (encodeList (values.map stored)).length / width α = (values.map stored).length := by
    rw [length_encodeList, Nat.mul_div_cancel _ width_pos]
  have decoded := decodeList_encodeList (values.map stored) []
  rwa [written, count, ← List.append_nil (encodeList _)]

namespace TrueType

def LocationFormat.Fits : LocationFormat → List Bytes → Prop
  | .short, glyphs => (∀ glyph ∈ glyphs, 2 ∣ glyph.length) ∧ glyphs.flatten.length ≤ 131070
  | .long, glyphs => glyphs.flatten.length < 0x100000000

namespace Locations

/-! Where the glyphs start. -/

theorem starts_eq_boundaries (offset : Nat) (glyphs : List Bytes) :
    starts offset glyphs = Cff.Index.boundaries offset glyphs := by
  induction glyphs generalizing offset with
  | nil => rfl
  | cons glyph glyphs induction => exact congrArg (offset :: ·) (induction _)

theorem length_starts (offset : Nat) (glyphs : List Bytes) :
    (starts offset glyphs).length = glyphs.length + 1 := by
  rw [starts_eq_boundaries, Cff.Index.length_boundaries]

theorem getElem?_starts {position : Nat} {glyphs : List Bytes} (within : position ≤ glyphs.length) :
    (starts 0 glyphs)[position]? = some (glyphs.take position).flatten.length := by
  rw [starts_eq_boundaries, Cff.Index.getElem?_boundaries _ within, Nat.zero_add]

theorem le_of_mem_starts {offset start : Nat} {glyphs : List Bytes}
    (member : start ∈ starts offset glyphs) : start ≤ offset + glyphs.flatten.length := by
  induction glyphs generalizing offset with
  | nil =>
      cases List.mem_singleton.mp member
      exact Nat.le_add_right _ _
  | cons glyph glyphs induction =>
      rw [List.flatten_cons, List.length_append, ← Nat.add_assoc]
      rcases List.mem_cons.mp member with rfl | member
      · exact Nat.le_trans (Nat.le_add_right _ _) (Nat.le_add_right _ _)
      · exact induction member

theorem even_of_mem_starts {offset start : Nat} {glyphs : List Bytes} (evenOffset : 2 ∣ offset)
    (even : ∀ glyph ∈ glyphs, 2 ∣ glyph.length) (member : start ∈ starts offset glyphs) :
    2 ∣ start := by
  induction glyphs generalizing offset with
  | nil =>
      cases List.mem_singleton.mp member
      exact evenOffset
  | cons glyph glyphs induction =>
      rcases List.forall_mem_cons.mp even with ⟨evenGlyph, evenOthers⟩
      rcases List.mem_cons.mp member with rfl | member
      · exact evenOffset
      · exact induction (Nat.dvd_add evenOffset evenGlyph) evenOthers member

/-! The table. -/

def ofGlyphs (format : LocationFormat) (glyphs : List Bytes) : Locations :=
  ofBytes format (encode format glyphs)

theorem toNat_doubled {offset : Nat} (even : 2 ∣ offset) (small : offset ≤ 131070) :
    ((UInt16.ofNat (offset / 2)).toUInt32 * 2).toNat = offset := by
  have half : offset / 2 < 0x10000 := by omega
  rw [UInt32.toNat_mul, UInt16.toNat_toUInt32, UInt16.toNat_ofNat_of_lt' half]
  show offset / 2 * 2 % 0x100000000 = offset
  omega

theorem map_eq_self {offsets : List Nat} {change : Nat → Nat}
    (same : ∀ offset ∈ offsets, change offset = offset) : offsets.map change = offsets :=
  (List.map_congr_left same).trans (List.map_id _)

theorem toNat_offsets {format : LocationFormat} {glyphs : List Bytes}
    (fits : format.Fits glyphs) :
    (ofGlyphs format glyphs).offsets.map UInt32.toNat = starts 0 glyphs := by
  have bound {start : Nat} (member : start ∈ starts 0 glyphs) : start ≤ glyphs.flatten.length := by
    have most := le_of_mem_starts member
    rwa [Nat.zero_add] at most
  cases format with
  | short =>
      rcases fits with ⟨even, small⟩
      have halves : Packed.decodeList UInt16 ((encode .short glyphs).length / 2)
          (encode .short glyphs) = (starts 0 glyphs).map fun start => UInt16.ofNat (start / 2) := by
        refine Packed.decodeList_flatMap fun start member => ?_
        have half : start / 2 < 0x10000 := by
          have most := bound member
          omega
        exact congrArg (Bytes.ofNumber 2) (UInt16.toNat_ofNat_of_lt' half).symm
      rw [ofGlyphs, ofBytes, halves, List.map_map, List.map_map]
      refine map_eq_self fun start member => ?_
      exact toNat_doubled (even_of_mem_starts (Nat.dvd_zero 2) even member)
        (Nat.le_trans (bound member) small)
  | long =>
      have narrow {start : Nat} (member : start ∈ starts 0 glyphs) : start < 0x100000000 :=
        Nat.lt_of_le_of_lt (bound member) fits
      have words : (ofGlyphs .long glyphs).offsets = (starts 0 glyphs).map UInt32.ofNat := by
        refine Packed.decodeList_flatMap fun start member => ?_
        exact congrArg (Bytes.ofNumber 4) (UInt32.toNat_ofNat_of_lt' (narrow member)).symm
      rw [words, List.map_map]
      exact map_eq_self fun start member => UInt32.toNat_ofNat_of_lt' (narrow member)

/-! Glyphs. -/

section Found

variable {format : LocationFormat} {glyphs : List Bytes} (fits : format.Fits glyphs)

include fits

theorem offset_ofGlyphs {position : Nat} (within : position ≤ glyphs.length) :
    (ofGlyphs format glyphs).offset position = .ok (glyphs.take position).flatten.length := by
  have found := getElem?_starts within
  rw [← toNat_offsets fits, List.getElem?_map] at found
  rcases Option.map_eq_some_iff.mp found with ⟨offset, found, same⟩
  rw [Locations.offset, found]
  exact congrArg Except.ok same

theorem offset_ofGlyphs_beyond {position : Nat} (beyond : glyphs.length < position) :
    (ofGlyphs format glyphs).offset position =
      .error (.outOfBounds (position * format.width)) := by
  have length : (ofGlyphs format glyphs).offsets.length = glyphs.length + 1 := by
    rw [← length_starts 0, ← toNat_offsets fits, List.length_map]
  have missing : (ofGlyphs format glyphs).offsets[position]? = none := by
    rw [List.getElem?_eq_none_iff, length]
    exact beyond
  rw [offset, missing]
  rfl

theorem bytes?_ofGlyphs {glyph : GlyphId} {bytes : Bytes}
    (found : glyphs[glyph.toNat]? = some bytes) :
    (ofGlyphs format glyphs).bytes? glyphs.flatten glyph =
      .ok (if bytes = [] then none else some bytes) := by
  have within : glyph.toNat < glyphs.length := (List.getElem?_eq_some_iff.mp found).1
  have stop := Cff.Index.length_flatten_take_succ found
  have cut := Cff.Index.slice?_flatten found []
  rw [List.append_nil] at cut
  simp only [bytes?, offset_ofGlyphs fits (Nat.le_of_lt within), offset_ofGlyphs fits within, bind,
    Except.bind, cut]
  have equal : (glyphs.take glyph.toNat).flatten.length =
      (glyphs.take (glyph.toNat + 1)).flatten.length ↔ bytes = [] := by
    rw [stop, ← List.length_eq_zero_iff]
    omega
  simp only [equal]
  split <;> rfl

theorem bytes?_ofGlyphs_beyond {glyph : GlyphId} (beyond : glyphs.length ≤ glyph.toNat) :
    (ofGlyphs format glyphs).bytes? glyphs.flatten glyph =
      .error (.outOfBounds (max glyph.toNat (glyphs.length + 1) * format.width)) := by
  have missing := offset_ofGlyphs_beyond fits (Nat.lt_succ_of_le beyond)
  rcases Nat.eq_or_lt_of_le beyond with last | far
  · have start := offset_ofGlyphs fits (Nat.le_of_eq last.symm)
    rw [last, Nat.max_eq_right (Nat.le_succ _)]
    simp only [bytes?, start, missing, bind, Except.bind]
  · rw [Nat.max_eq_left far]
    simp only [bytes?, offset_ofGlyphs_beyond fits far, bind, Except.bind]

end Found

/-- The glyphs are found where they are: one without bytes is absent, every other one is read
from its own bytes, and there are no others. -/
structure Finds (locations : Locations) (glyphs : List Bytes) : Prop where
  empty : ∀ glyph : GlyphId, glyphs[glyph.toNat]? = some [] →
    locations.glyph? glyphs.flatten glyph = .ok none
  stored : ∀ (glyph : GlyphId) (bytes : Bytes), glyphs[glyph.toNat]? = some bytes → bytes ≠ [] →
    locations.glyph? glyphs.flatten glyph = some <$> Glyph.ofBytes bytes
  beyond : ∀ glyph : GlyphId, glyphs.length ≤ glyph.toNat →
    locations.glyph? glyphs.flatten glyph = .error (.outOfBounds
      (max glyph.toNat (glyphs.length + 1) * locations.format.width))

theorem finds_ofGlyphs {format : LocationFormat} {glyphs : List Bytes}
    (fits : format.Fits glyphs) : (ofGlyphs format glyphs).Finds glyphs where
  empty := by
    intro glyph found
    rw [glyph?, bytes?_ofGlyphs fits found]
    rfl
  stored := by
    intro glyph bytes found nonempty
    rw [glyph?, bytes?_ofGlyphs fits found, if_neg nonempty]
    rfl
  beyond := by
    intro glyph beyond
    rw [glyph?, bytes?_ofGlyphs_beyond fits beyond]
    rfl

structure Agree (first second : Locations) (glyphs : List Bytes) : Prop where
  within : ∀ glyph : GlyphId, glyph.toNat < glyphs.length →
    first.glyph? glyphs.flatten glyph = second.glyph? glyphs.flatten glyph
  everywhere : ∀ glyph : GlyphId,
    (first.glyph? glyphs.flatten glyph).mapError ReadError.kind =
      (second.glyph? glyphs.flatten glyph).mapError ReadError.kind

/-- Tables that find the same glyphs agree. -/
theorem Finds.agree {first second : Locations} {glyphs : List Bytes}
    (firstFinds : first.Finds glyphs) (secondFinds : second.Finds glyphs) :
    Agree first second glyphs := by
  have within (glyph : GlyphId) (within : glyph.toNat < glyphs.length) :
      first.glyph? glyphs.flatten glyph = second.glyph? glyphs.flatten glyph := by
    have found := List.getElem?_eq_getElem within
    by_cases none : glyphs[glyph.toNat] = []
    · rw [none] at found
      rw [firstFinds.empty glyph found, secondFinds.empty glyph found]
    · rw [firstFinds.stored glyph _ found none, secondFinds.stored glyph _ found none]
  refine ⟨within, fun glyph => ?_⟩
  rcases Nat.lt_or_ge glyph.toNat glyphs.length with inside | beyond
  · rw [within glyph inside]
  · rw [firstFinds.beyond glyph beyond, secondFinds.beyond glyph beyond]
    rfl

/-- Every glyph is found with long locations. Short ones find it as well if all lengths are even
and half of the last offset is a word, and then both say the same. -/
theorem finds_glyphs (glyphs : List Bytes) :
    (glyphs.flatten.length < 0x100000000 → (ofGlyphs .long glyphs).Finds glyphs) ∧
    ((∀ glyph ∈ glyphs, 2 ∣ glyph.length) → glyphs.flatten.length ≤ 131070 →
      (ofGlyphs .short glyphs).Finds glyphs ∧
        Agree (ofGlyphs .short glyphs) (ofGlyphs .long glyphs) glyphs) := by
  constructor
  · intro small
    exact finds_ofGlyphs small
  · intro even small
    have short : LocationFormat.short.Fits glyphs := ⟨even, small⟩
    have long : LocationFormat.long.Fits glyphs := Nat.lt_of_le_of_lt small (by decide)
    exact ⟨finds_ofGlyphs short, (finds_ofGlyphs short).agree (finds_ofGlyphs long)⟩

/-- Glyphs without bytes in front, in the middle and at the end. -/
theorem finds_glyphs_between_empty_ones :
    let glyphs : List Bytes := [[], [0, 1], [], [], [2, 3, 4, 5], []]
    glyphs.flatten.length < 0x100000000 ∧ (∀ glyph ∈ glyphs, 2 ∣ glyph.length) ∧
      glyphs.flatten.length ≤ 131070 ∧ (ofGlyphs .long glyphs).Finds glyphs ∧
      (ofGlyphs .short glyphs).Finds glyphs ∧
      Agree (ofGlyphs .short glyphs) (ofGlyphs .long glyphs) glyphs := by
  intro glyphs
  have small : glyphs.flatten.length < 0x100000000 := by decide
  have even : ∀ glyph ∈ glyphs, 2 ∣ glyph.length := by decide
  have short : glyphs.flatten.length ≤ 131070 := by decide
  rcases (finds_glyphs glyphs).2 even short with ⟨shortFinds, agree⟩
  exact ⟨small, even, short, (finds_glyphs glyphs).1 small, shortFinds, agree⟩

end Locations

end TrueType

end Letterform
