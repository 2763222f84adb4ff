import Letterform.Proofs.Ascending
import Letterform.Proofs.Bytes.Reading
import Letterform.Table.Cmap

/-!
Group maps come back from their bytes. A search from the front gives up at the first group that
starts after the code; nothing is lost by that, for all groups behind it start later still.
Glyphs whose numbers are too large are left out.
-/

namespace Letterform.Cmap

/-! Groups that can be written. -/

def Group.Contains (group : Group) (code : UInt32) : Prop :=
  group.start ≤ code ∧ code ≤ group.stop

structure AreInOrder (groups : List Group) : Prop where
  ordered : ∀ group ∈ groups, group.start ≤ group.stop
  separate : groups.IsChain fun group next => group.stop < next.start

namespace AreInOrder

variable {groups : List Group} (inOrder : AreInOrder groups)

include inOrder

theorem pairwise : groups.Pairwise fun group later => group.stop < later.start :=
  pairwise_of_separate inOrder.ordered inOrder.separate

theorem length_le : groups.length ≤ 0x100000000 := by
  have ascending : groups.Pairwise fun group later => group.start.toNat < later.start.toNat := by
    apply inOrder.pairwise.imp_of_mem
    intro group later member _ before
    exact UInt32.lt_iff_toNat_lt.mp (UInt32.lt_of_le_of_lt (inOrder.ordered group member) before)
  apply length_le_of_ascending ascending
  intro group _
  exact group.start.toNat_lt

end AreInOrder

/-! The glyph of a code. -/

theorem Group.glyphAt?_eq_some_iff {group : Group} {distance : Nat} {glyph : GlyphId} :
    group.glyphAt? distance = some glyph ↔ group.glyph.toNat + distance = glyph.toNat := by
  have small := glyph.value.toNat_lt
  simp only [glyphAt?, GlyphId.toNat]
  constructor
  · intro equal
    split at equal
    · next fits =>
        cases equal
        exact (Nat.mod_eq_of_lt (Nat.lt_succ_of_le fits)).symm
    · cases equal
  · intro equal
    rw [equal, if_pos (Nat.le_of_lt_succ small), UInt16.ofNat_toNat]

namespace GroupMap

def Gives (groups : List Group) (code : UInt32) (glyph : GlyphId) : Prop :=
  ∃ group ∈ groups, group.Contains code ∧
    group.glyph.toNat + (code.toNat - group.start.toNat) = glyph.toNat

section Search

variable {code : UInt32} {glyph : GlyphId} {group : Group} {groups : List Group}

theorem gives_cons_iff : Gives (group :: groups) code glyph ↔
    (group.Contains code ∧ group.glyph.toNat + (code.toNat - group.start.toNat) = glyph.toNat) ∨
      Gives groups code glyph := by
  simp only [Gives, List.mem_cons, exists_eq_or_imp]

theorem not_gives_of_le {stop : UInt32} (beyond : ∀ group ∈ groups, stop < group.start)
    (reached : code ≤ stop) : ¬Gives groups code glyph := by
  rintro ⟨group, member, contains, -⟩
  have before := UInt32.lt_of_le_of_lt reached (beyond group member)
  exact UInt32.not_le.mpr before contains.1

/-- Nothing behind the group at which the search ends gives a glyph to the code. -/
theorem glyphIn?_eq_some_iff (ordered : ∀ group ∈ groups, group.start ≤ group.stop)
    (pairwise : groups.Pairwise fun group later => group.stop < later.start) :
    glyphIn? code groups = some glyph ↔ Gives groups code glyph := by
  induction groups with
  | nil => simp [glyphIn?, Gives]
  | cons group groups induction =>
      rw [List.forall_mem_cons] at ordered
      rcases List.pairwise_cons.mp pairwise with ⟨beyond, others⟩
      rw [glyphIn?, gives_cons_iff]
      split
      · next early =>
          have reached : code ≤ group.stop :=
            UInt32.le_of_lt (UInt32.lt_of_lt_of_le early ordered.1)
          refine iff_of_false nofun ?_
          rintro (⟨contains, -⟩ | given)
          · exact UInt32.not_le.mpr early contains.1
          · exact not_gives_of_le beyond reached given
      · next started =>
          split
          · next reached =>
              have contains : group.Contains code := ⟨UInt32.not_lt.mp started, reached⟩
              rw [Group.glyphAt?_eq_some_iff, or_iff_left (not_gives_of_le beyond reached),
                and_iff_right contains]
          · next passed =>
              rw [induction ordered.2 others, or_iff_right]
              exact fun given => passed given.1.2

end Search

/-! Reading a subtable. -/

def header (length : Nat) : Bytes :=
  Bytes.ofNumber 2 12 ++ ([0, 0] ++ (Bytes.ofNumber 4 length ++ Bytes.ofNumber 4 0))

theorem decoder_reads {groups : List Group} (few : groups.length < 0x100000000) (length : Nat) :
    decoder.ReadsWithin
      (header length ++ (Bytes.ofNumber 4 groups.length ++ Packed.encodeList groups)) ⟨groups⟩ := by
  have number : (UInt32.ofNat groups.length).toNat = groups.length := UInt32.toNat_ofNat_of_lt' few
  have encoded : Packed.encode (UInt32.ofNat groups.length) = Bytes.ofNumber 4 groups.length :=
    congrArg (Bytes.ofNumber 4) number
  have headerLength : (header length).length = 12 := by
    simp [header]
  have list := Decoder.ReadsWithin.readList number.symm
  have reads : decoder.ReadsWithin (header length ++ (Packed.encode (UInt32.ofNat groups.length) ++
      (Packed.encodeList groups ++ []))) ⟨groups⟩ :=
    (Decoder.Reads.skip headerLength).within.bind ((Decoder.Reads.read _).within.bind
      (list.bind (Decoder.Reads.pure _).within))
  rwa [List.append_nil, encoded] at reads

theorem ofBytes_encodeGroups {groups : List Group} (few : groups.length < 0x100000000)
    (behind : Bytes) :
    Subtable.ofBytes (encodeGroups groups ++ behind) = .ok (.groups ⟨groups⟩) := by
  have parts : encodeGroups groups ++ behind =
      (header (16 + Packed.width Group * groups.length) ++
        (Bytes.ofNumber 4 groups.length ++ Packed.encodeList groups)) ++ behind := by
    simp only [encodeGroups, header, List.append_assoc]
  have format : (encodeGroups groups ++ behind).readAt UInt16 0 = .ok 12 := by
    rw [parts, header, List.append_assoc, List.append_assoc]
    exact Bytes.readAt_encode 12 _
  have small : (header (16 + Packed.width Group * groups.length) ++
      (Bytes.ofNumber 4 groups.length ++ Packed.encodeList groups)).length ≤ lastOffset := by
    have large : 12 + 4 + 0x100000000 * 12 ≤ lastOffset := by decide
    have width : Packed.width Group = 12 := rfl
    simp only [header, List.length_append, Bytes.length_ofNumber, Packed.length_encodeList,
      List.length_cons, List.length_nil, width]
    omega
  have map := (decoder_reads few (16 + Packed.width Group * groups.length)).decode small behind
  rw [Subtable.ofBytes, format, parts, map]
  rfl

end GroupMap

end Letterform.Cmap
