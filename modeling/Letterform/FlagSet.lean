/-!
Sets of flags stored as the bits of a number. Bits without a meaning are dropped
when a set is read.
-/

namespace Letterform

structure FlagSet (width : Nat) (known : BitVec width) where
  bits : BitVec width
  isKnown : bits &&& known = bits
  deriving DecidableEq, Repr

namespace FlagSet

variable {width : Nat} {known : BitVec width}

def ofBits (bits : BitVec width) : FlagSet width known :=
  ⟨bits &&& known, by rw [BitVec.and_assoc, BitVec.and_self]⟩

theorem ofBits_bits (flags : FlagSet width known) : ofBits flags.bits = flags := by
  cases flags with
  | mk bits isKnown => simp only [ofBits, isKnown]

def empty : FlagSet width known := ofBits 0

theorem union_isKnown (first second : FlagSet width known) :
    (first.bits ||| second.bits) &&& known = first.bits ||| second.bits := by
  rw [BitVec.and_or_distrib_right, first.isKnown, second.isKnown]

def union (first second : FlagSet width known) : FlagSet width known :=
  ⟨first.bits ||| second.bits, union_isKnown first second⟩

instance : Union (FlagSet width known) := ⟨union⟩

theorem empty_union (flags : FlagSet width known) : .empty ∪ flags = flags := by
  cases flags with
  | mk bits isKnown =>
      show FlagSet.mk (0 &&& known ||| bits) _ = _
      simp

theorem union_empty (flags : FlagSet width known) : flags ∪ .empty = flags := by
  cases flags with
  | mk bits isKnown =>
      show FlagSet.mk (bits ||| 0 &&& known) _ = _
      simp

def contains (flags others : FlagSet width known) : Bool :=
  flags.bits &&& others.bits = others.bits

end FlagSet

end Letterform
