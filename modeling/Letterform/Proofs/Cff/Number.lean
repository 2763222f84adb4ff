import Letterform.Cff.Number
import Letterform.Proofs.Bytes.Reading

/-!
Integers in DICTs and charstrings. Whatever follows it, an integer of 16 bits is read
back from the bytes that it is written with.
-/

namespace Letterform

namespace Cff

def Fault.kind : Fault → Fault
  | .read error => .read error.kind
  | fault => fault

def Fault.IsOutOfBounds (fault : Fault) : Prop := ∃ offset, fault = .outOfBounds offset

theorem regular_lift {α : Type} {decoder : Decoder ReadError α}
    (regular : decoder.IsRegular ReadError.kind ReadError.IsOutOfBounds) :
    (monadLift decoder : Decoder Fault α).IsRegular Fault.kind Fault.IsOutOfBounds :=
  regular.mapFault Fault.read (fun _ => rfl)
    fun _ outOfBounds => outOfBounds.imp fun _ equal => congrArg Fault.read equal

namespace Number

theorem integerAfter_isRegular {first : UInt8}
    (starts : first = 28 ∨ first = 29 ∨ 32 ≤ first ∧ first ≠ 255) :
    (integerAfter first).IsRegular Fault.kind Fault.IsOutOfBounds := by
  have read (α : Type) [Packed α] := regular_lift (Decoder.IsRegular.read (α := α))
  simp only [integerAfter]
  split
  · exact .pure _
  · split
    · exact .bind (read UInt8) fun _ => .pure _
    · split
      · exact .bind (read UInt8) fun _ => .pure _
      · split
        · exact .bind (read Int16) fun _ => .pure _
        · split
          · exact read Int32
          · exfalso
            rcases starts with rfl | rfl | ⟨low, high⟩
            · simp_all
            · simp_all
            · have bound := first.toNat_lt
              have above : 32 ≤ first.toNat := UInt8.le_iff_toNat_le.mp low
              have notLast : first.toNat ≠ 255 := fun equal => high (UInt8.toNat_inj.mp equal)
              omega

/-! Reading what has been written. -/

theorem byte_reads (byte : UInt8) :
    (monadLift (Decoder.read UInt8) : Decoder Fault UInt8).Reads [byte] byte :=
  (Decoder.Reads.byte byte).mapFault Fault.read

theorem reads_byte {α : Type} {next : UInt8 → Decoder Fault α} {byte : UInt8} {taken : Bytes}
    {value : α} (reads : (next byte).Reads taken value) :
    ((monadLift (Decoder.read UInt8) : Decoder Fault UInt8) >>= next).Reads
      (byte :: taken) value :=
  (byte_reads byte).bind reads

theorem integerAfter_reads_short (first : UInt8) (low : 32 ≤ first.toNat)
    (high : first.toNat ≤ 246) :
    (integerAfter first).Reads [] (Int32.ofInt (first.toNat - 139)) := by
  have short : (32 : Int) ≤ first.toNat ∧ (first.toNat : Int) ≤ 246 := by omega
  simp only [integerAfter, if_pos short]
  exact .pure _

theorem integerAfter_reads_above (first byte : UInt8) (low : 247 ≤ first.toNat)
    (high : first.toNat ≤ 250) :
    (integerAfter first).Reads [byte]
      (Int32.ofInt ((first.toNat - 247) * 256 + byte.toNat + 108)) := by
  have notShort : ¬((32 : Int) ≤ first.toNat ∧ (first.toNat : Int) ≤ 246) := by omega
  have above : (247 : Int) ≤ first.toNat ∧ (first.toNat : Int) ≤ 250 := by omega
  simp only [integerAfter, if_neg notShort, if_pos above]
  exact reads_byte (.pure _)

theorem integerAfter_reads_below (first byte : UInt8) (low : 251 ≤ first.toNat)
    (high : first.toNat ≤ 254) :
    (integerAfter first).Reads [byte]
      (Int32.ofInt (-(first.toNat - 251) * 256 - byte.toNat - 108)) := by
  have notShort : ¬((32 : Int) ≤ first.toNat ∧ (first.toNat : Int) ≤ 246) := by omega
  have notAbove : ¬((247 : Int) ≤ first.toNat ∧ (first.toNat : Int) ≤ 250) := by omega
  have below : (251 : Int) ≤ first.toNat ∧ (first.toNat : Int) ≤ 254 := by omega
  simp only [integerAfter, if_neg notShort, if_neg notAbove, if_pos below]
  exact reads_byte (.pure _)

theorem integerAfter_reads_word (value : Int16) :
    (integerAfter 28).Reads (Packed.encode value) value.toInt32 := by
  have word : (monadLift (Decoder.read Int16) : Decoder Fault Int16).Reads
      (Packed.encode value) value :=
    (Decoder.Reads.read value).mapFault Fault.read
  have whole : (integerAfter 28).Reads (Packed.encode value ++ []) value.toInt32 :=
    word.bind (.pure _)
  rwa [List.append_nil] at whole

def StartsShortInteger (first : UInt8) : Prop := first = 28 ∨ 32 ≤ first ∧ first ≠ 255

theorem startsShortInteger {first : UInt8} (low : 32 ≤ first.toNat) (high : first.toNat ≤ 254) :
    StartsShortInteger first := by
  refine .inr ⟨UInt8.le_iff_toNat_le.mpr low, ?_⟩
  intro equal
  rw [equal] at high
  exact absurd high (by decide)

theorem toNat_ofNat_byte {number : Nat} (high : number ≤ 255) :
    (UInt8.ofNat number).toNat = number :=
  UInt8.toNat_ofNat_of_lt' (Nat.lt_succ_of_le high)

theorem exists_encodeInteger {value : Int32} (low : -32768 ≤ value.toInt)
    (high : value.toInt ≤ 32767) :
    ∃ first rest, encodeInteger value = first :: rest ∧ StartsShortInteger first ∧
      (integerAfter first).Reads rest value := by
  simp only [encodeInteger]
  split
  · have toNat : (UInt8.ofNat (value.toInt + 139).toNat).toNat = (value.toInt + 139).toNat :=
      toNat_ofNat_byte (by omega)
    refine ⟨_, _, rfl, startsShortInteger (by omega) (by omega), ?_⟩
    have reads := integerAfter_reads_short (UInt8.ofNat (value.toInt + 139).toNat)
      (by omega) (by omega)
    rwa [toNat, show ((value.toInt + 139).toNat : Int) - 139 = value.toInt by omega,
      Int32.ofInt_toInt] at reads
  · split
    · generalize offset : (value.toInt - 108).toNat = distance
      have toNat := toNat_ofNat_byte (show distance / 256 + 247 ≤ 255 by omega)
      have lowToNat := toNat_ofNat_byte (show distance % 256 ≤ 255 by omega)
      refine ⟨_, _, rfl, startsShortInteger (by omega) (by omega), ?_⟩
      have reads := integerAfter_reads_above (UInt8.ofNat (distance / 256 + 247))
        (UInt8.ofNat (distance % 256)) (by omega) (by omega)
      rwa [toNat, lowToNat, show ((distance / 256 + 247 : Nat) - 247 : Int) * 256 +
        (distance % 256 : Nat) + 108 = value.toInt by omega, Int32.ofInt_toInt] at reads
    · split
      · generalize offset : (-value.toInt - 108).toNat = distance
        have toNat := toNat_ofNat_byte (show distance / 256 + 251 ≤ 255 by omega)
        have lowToNat := toNat_ofNat_byte (show distance % 256 ≤ 255 by omega)
        refine ⟨_, _, rfl, startsShortInteger (by omega) (by omega), ?_⟩
        have reads := integerAfter_reads_below (UInt8.ofNat (distance / 256 + 251))
          (UInt8.ofNat (distance % 256)) (by omega) (by omega)
        rwa [toNat, lowToNat, show -((distance / 256 + 251 : Nat) - 251 : Int) * 256 -
          (distance % 256 : Nat) - 108 = value.toInt by omega, Int32.ofInt_toInt] at reads
      · split
        · have word : value.toInt16.toInt32 = value := by
            apply Int32.toInt_inj.mp
            rw [Int16.toInt_toInt32, Int32.toInt_toInt16]
            exact Int.bmod_eq_of_le (by omega) (by omega)
          have reads := integerAfter_reads_word value.toInt16
          rw [word] at reads
          exact ⟨_, _, rfl, .inl rfl, reads⟩
        · omega

end Number

end Cff

end Letterform
