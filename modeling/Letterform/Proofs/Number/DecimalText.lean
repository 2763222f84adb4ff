import Letterform.Number.DecimalText

/-!
The texts of finite numbers. Written without exponents, each one is a minus sign or nothing, then
digits, and perhaps a point and more digits. There is no other character in it.
-/

namespace Letterform

attribute [local instance] naturalPower

/-! Numbers that are finite. -/

namespace FloatValue

open Float.Model

theorem toNat_unpackExponent (value : Float) :
    (@UnpackedFloat.unpackExponent Format.binary64 value.toBits.toBitVec).toNat =
      value.toBits.toNat / 2 ^ (52 : Nat) % 2 ^ (11 : Nat) := by
  simp [UnpackedFloat.unpackExponent, BitVec.extractLsb, Nat.shiftRight_eq_div_pow]

theorem not_isFinite_unpack {bits : BitVec 64}
    (allOnes : @UnpackedFloat.unpackExponent Format.binary64 bits = -1#11) :
    (UnpackedFloat.unpack Format.binary64 bits).isFinite = false := by
  show UnpackedFloat.isFinite (if _ = -1#11 then (if _ = 0#52 then _ else _) else _) = false
  rw [if_pos allOnes]
  split
  · rfl
  · rfl

theorem field_of_isFinite {value : Float} (finite : value.isFinite = true) :
    value.toBits.toNat / 2 ^ (52 : Nat) % 2 ^ (11 : Nat) ≠ 2047 := by
  intro full
  have infinite : value.isFinite = false :=
    not_isFinite_unpack (BitVec.eq_of_toNat_eq ((toNat_unpackExponent value).trans full))
  rw [infinite] at finite
  cases finite

theorem exists_finite {value : Float} (finite : value.isFinite = true) :
    ∃ negative magnitude, ofFloat value = .finite negative magnitude := by
  rw [ofFloat, if_neg (field_of_isFinite finite)]
  split
  · exact ⟨_, _, rfl⟩
  · exact ⟨_, _, rfl⟩

end FloatValue

/-! Numerals. -/

def AreDigits (chars : List Char) : Prop := chars ≠ [] ∧ ∀ char ∈ chars, char.isDigit = true

inductive IsUnsigned : List Char → Prop
  | whole {digits : List Char} : AreDigits digits → IsUnsigned digits
  | fraction {digits further : List Char} :
      AreDigits digits → AreDigits further → IsUnsigned (digits ++ '.' :: further)

inductive IsNumeral : List Char → Prop
  | unsigned {chars : List Char} : IsUnsigned chars → IsNumeral chars
  | negative {chars : List Char} : IsUnsigned chars → IsNumeral ('-' :: chars)

theorem AreDigits.append {first second : List Char} (left : AreDigits first)
    (right : ∀ char ∈ second, char.isDigit = true) : AreDigits (first ++ second) := by
  refine ⟨List.append_ne_nil_of_left_ne_nil left.1 second, ?_⟩
  intro char mem
  rcases List.mem_append.mp mem with inFirst | inSecond
  · exact left.2 char inFirst
  · exact right char inSecond

theorem areDigits_zero : AreDigits ['0'] :=
  ⟨List.cons_ne_nil _ _, List.forall_mem_singleton.mpr rfl⟩

namespace Decimal

theorem toList_zeros (count : Nat) : (zeros count).toList = List.replicate count '0' := by
  rw [zeros, String.pushn]
  induction count with
  | zero => rfl
  | succ count induction => rw [Nat.repeat, String.toList_push, induction, List.replicate_succ']

theorem isDigit_of_mem_zeros {count : Nat} {char : Char} (mem : char ∈ (zeros count).toList) :
    char.isDigit = true := by
  rw [toList_zeros] at mem
  rw [List.eq_of_mem_replicate mem]
  rfl

theorem areDigits_digitText (decimal : Decimal) : AreDigits decimal.digitText.toList := by
  rw [digitText, Nat.toString_eq_repr, Nat.toList_repr]
  exact ⟨Nat.toDigits_ne_nil, fun char mem =>
    Nat.isDigit_of_mem_toDigits (by decide) (by decide) mem⟩

theorem isUnsigned_positional (decimal : Decimal) : IsUnsigned decimal.positional.toList := by
  have digits := decimal.areDigits_digitText
  rw [positional]
  split
  · have further : AreDigits ((zeros (-decimal.pointPosition).toNat).toList ++
        decimal.digitText.toList) := by
      refine ⟨List.append_ne_nil_of_right_ne_nil _ digits.1, ?_⟩
      intro char mem
      rcases List.mem_append.mp mem with isZero | inDigits
      · exact isDigit_of_mem_zeros isZero
      · exact digits.2 char inDigits
    rw [String.toList_append, String.toList_append, List.append_assoc]
    exact .fraction areDigits_zero further
  · next positive =>
      split
      · rw [String.toList_append]
        exact .whole (digits.append fun char mem => isDigit_of_mem_zeros mem)
      · next inside =>
          have place : 0 < decimal.pointPosition.toNat := by omega
          have before : decimal.pointPosition.toNat < decimal.digitText.toList.length := by
            rw [String.length_toList]
            omega
          have whole : AreDigits (decimal.digitText.toList.take decimal.pointPosition.toNat) :=
            ⟨List.ne_nil_of_length_pos (by rw [List.length_take]; omega),
              fun char mem => digits.2 char (List.mem_of_mem_take mem)⟩
          have further : AreDigits (decimal.digitText.toList.drop decimal.pointPosition.toNat) :=
            ⟨List.ne_nil_of_length_pos (by rw [List.length_drop]; omega),
              fun char mem => digits.2 char (List.mem_of_mem_drop mem)⟩
          simp only [String.toList_append, String.toList_ofList, List.append_assoc]
          exact .fraction whole further

end Decimal

namespace NumberStyle

theorem isNumeral_plain_text {value : Float} (finite : value.isFinite = true) :
    IsNumeral (plain.text value).toList := by
  rcases FloatValue.exists_finite finite with ⟨negative, magnitude, whole⟩
  have unsigned : IsUnsigned (plain.magnitudeText magnitude).toList := by
    rw [magnitudeText]
    split
    · exact .whole areDigits_zero
    · exact Decimal.isUnsigned_positional _
  rw [text, whole]
  cases negative with
  | false => exact .unsigned unsigned
  | true =>
      have minus : (sign true (plain.magnitudeText magnitude)).toList =
          '-' :: (plain.magnitudeText magnitude).toList := String.toList_append
      exact minus ▸ .negative unsigned

end NumberStyle

end Letterform
