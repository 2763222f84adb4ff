import Letterform.Charstring.Operator
import Letterform.Proofs.Cff.Number

/-!
The tokens of a charstring. A token depends on its own bytes only, and there are two
reasons why one cannot be read: its bytes end, or it is an unknown operator.
-/

namespace Letterform

namespace Charstring

open Cff (Fault Number)

namespace Token

def IsFault (fault : Fault) : Prop :=
  fault.IsOutOfBounds ∨ ∃ opcode, fault = .charstringOperator opcode

theorem operatorOf_isRegular (operator : Option Operator) (opcode : UInt8) :
    (operatorOf operator opcode).IsRegular Fault.kind IsFault := by
  cases operator with
  | some known => exact .pure _
  | none => exact .fail (.inr ⟨opcode, rfl⟩)

theorem decoder_isRegular : decoder.IsRegular Fault.kind IsFault := by
  have read (α : Type) [Packed α] :
      (monadLift (Decoder.read α) : Decoder Fault α).IsRegular Fault.kind IsFault :=
    (Cff.regular_lift Decoder.IsRegular.read).weaken fun _ => .inl
  refine .bind (read UInt8) fun first => ?_
  simp only [after]
  split
  · exact .bind (read Fixed) fun _ => .pure _
  · split
    · next notFixed startsInteger =>
        have starts : first = 28 ∨ first = 29 ∨ 32 ≤ first ∧ first ≠ 255 := by
          simp only [Bool.or_eq_true, decide_eq_true_eq] at startsInteger
          exact startsInteger.imp_right fun above => .inr ⟨above, notFixed⟩
        exact .bind ((Number.integerAfter_isRegular starts).weaken fun _ => .inl) fun _ => .pure _
    · split
      · exact .bind (read UInt8) fun _ => operatorOf_isRegular _ _
      · exact operatorOf_isRegular _ _

/-! Reading what has been written. -/

theorem decoder_reads {first : UInt8} {taken : Bytes} {token : Token}
    (reads : (after first).Reads taken token) : decoder.Reads (first :: taken) token :=
  Number.reads_byte reads

theorem decoder_reads_integer {value : Int32} (low : -32768 ≤ value.toInt)
    (high : value.toInt ≤ 32767) :
    decoder.Reads (Number.encodeInteger value) (.operand (.integer value)) := by
  rcases Number.exists_encodeInteger low high with ⟨first, rest, encoded, starts, reads⟩
  rw [encoded]
  apply decoder_reads
  have notFixed : first ≠ 255 := by
    rcases starts with rfl | ⟨-, notFixed⟩
    · decide
    · exact notFixed
  have startsInteger : (first = 28 || 32 ≤ first) = true := by
    simpa using starts.imp_right And.left
  simp only [after, if_neg notFixed, if_pos startsInteger]
  rw [← List.append_nil rest]
  exact reads.bind (.pure _)

theorem decoder_reads_fixed (value : Fixed) :
    decoder.Reads (255 :: Packed.encode value) (.operand (.fixed value)) := by
  apply decoder_reads
  rw [after, if_pos rfl, ← List.append_nil (Packed.encode value)]
  exact ((Decoder.Reads.read value).mapFault Fault.read).bind (.pure _)

end Token

def SubroutineScope.opcode : SubroutineScope → UInt8
  | .globals => 29
  | .locals => 10

def returnOpcode : UInt8 := 11

theorem Token.decoder_reads_call (scope : SubroutineScope) :
    Token.decoder.Reads [scope.opcode] (.operator (.call scope)) := by
  cases scope with
  | globals | locals =>
      intro rest position
      rfl

theorem Token.decoder_reads_return :
    Token.decoder.Reads [returnOpcode] (.operator .return) := by
  intro rest position
  rfl

end Charstring

end Letterform
