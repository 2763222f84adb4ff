import Letterform.Cff.Dict.Token
import Letterform.Proofs.Cff.Real
import Mathlib.Data.List.Forall2

/-!
The tokens of a written DICT. Items are written one behind the other with nothing between them,
and each one is read back as one token: an integer in its own bytes, a real as the number that
its text says, and an operator by its number.
-/

namespace Letterform.Cff

namespace Number

def StartsInteger (first : UInt8) : Prop := 22 ≤ first.toNat ∧ first ≠ 30

theorem StartsShortInteger.startsInteger {first : UInt8} (starts : StartsShortInteger first) :
    StartsInteger first := by
  rcases starts with rfl | ⟨low, -⟩
  · exact ⟨by decide, by decide⟩
  · have above : 32 ≤ first.toNat := UInt8.le_iff_toNat_le.mp low
    refine ⟨by omega, ?_⟩
    rintro rfl
    exact absurd above (by decide)

theorem integerAfter_reads_long (value : Int32) :
    (integerAfter 29).Reads (Packed.encode value) value :=
  (Decoder.Reads.read value).mapFault Fault.read

theorem encodeInteger_of_large {value : Int32}
    (large : ¬(-32768 ≤ value.toInt ∧ value.toInt ≤ 32767)) :
    encodeInteger value = encodeLong value := by
  simp only [encodeInteger]
  rw [if_neg (by omega), if_neg (by omega), if_neg (by omega), if_neg large]

theorem exists_encodeInteger_starts (value : Int32) :
    ∃ first rest, encodeInteger value = first :: rest ∧ StartsInteger first ∧
      (integerAfter first).Reads rest value := by
  by_cases small : -32768 ≤ value.toInt ∧ value.toInt ≤ 32767
  · rcases exists_encodeInteger small.1 small.2 with ⟨first, rest, encoded, starts, reads⟩
    exact ⟨first, rest, encoded, starts.startsInteger, reads⟩
  · exact ⟨29, _, encodeInteger_of_large small, ⟨by decide, by decide⟩,
      integerAfter_reads_long value⟩

end Number

namespace Dict

open Number (IsRealCharacter)

/-! What items stand for. -/

def Item.IsValid : Item → Prop
  | .integer _ | .long _ => True
  | .real text => (∀ c ∈ text.toList, IsRealCharacter c) ∧ text.length ≤ 64 ∧
      (Decimal.Numeral.ofChars? text.toList).isSome = true
  | .operator opcode => opcode ≤ 21 ∧ opcode ≠ 12
  | .escaped opcode => (Operator.ofEscapedOpcode? opcode).isSome = true

instance : DecidablePred Item.IsValid
  | .integer _ | .long _ => isTrue trivial
  | .real text =>
      -- The characters of the text are tried, not all characters that there are.
      haveI : Decidable (∀ c ∈ text.toList, IsRealCharacter c) := List.decidableBAll _ _
      inferInstanceAs (Decidable (_ ∧ _))
  | .operator _ => inferInstanceAs (Decidable (_ ∧ _))
  | .escaped _ => inferInstanceAs (Decidable (_ = true))

/-- The token that an item stands for. -/
inductive Item.Denotes : Item → Token → Prop
  | integer (value : Int32) : Denotes (.integer value) (.operand (.integer value))
  | long (value : Int32) : Denotes (.long value) (.operand (.integer value))
  | real {text : String} {numeral : Decimal.Numeral}
      (number : Decimal.Numeral.ofChars? text.toList = some numeral) :
      Denotes (.real text) (.operand (.real numeral.toFloat))
  | operator {opcode : UInt8} {operator : Operator}
      (known : Operator.ofOpcode? opcode = some operator) :
      Denotes (.operator opcode) (.operator operator)
  | escaped {opcode : UInt8} {operator : Operator}
      (known : Operator.ofEscapedOpcode? opcode = some operator) :
      Denotes (.escaped opcode) (.operator operator)

theorem Operator.isSome_ofOpcode? {opcode : UInt8} (low : opcode ≤ 21) (notEscape : opcode ≠ 12) :
    (ofOpcode? opcode).isSome = true := by
  have all : ∀ number < 22, number ≠ 12 → (ofOpcode? (UInt8.ofNat number)).isSome = true := by
    decide
  have bound : opcode.toNat < 22 := Nat.lt_succ_of_le (UInt8.le_iff_toNat_le.mp low)
  have known := all opcode.toNat bound fun equal => notEscape (UInt8.toNat_inj.mp equal)
  rwa [UInt8.ofNat_toNat] at known

/-! Reading one item. -/

namespace Token

theorem decoder_reads {first : UInt8} {taken : Bytes} {token : Token}
    (reads : (after first).Reads taken token) : decoder.Reads (first :: taken) token :=
  Number.reads_byte reads

theorem decoder_reads_operand {first : UInt8} {taken : Bytes} {number : Number}
    (high : 22 ≤ first.toNat) (reads : (Number.after first).Reads taken number) :
    decoder.Reads (first :: taken) (.operand number) := by
  have notEscape : first ≠ escape := by
    rintro rfl
    exact absurd high (by decide)
  have notOperator : ¬first ≤ 21 := by
    intro low
    have bound : first.toNat ≤ 21 := UInt8.le_iff_toNat_le.mp low
    omega
  apply decoder_reads
  rw [after, if_neg notEscape, if_neg notOperator]
  exact reads.map Token.operand

theorem decoder_reads_integer {first : UInt8} {taken : Bytes} {value : Int32}
    (starts : Number.StartsInteger first) (reads : (Number.integerAfter first).Reads taken value) :
    decoder.Reads (first :: taken) (.operand (.integer value)) := by
  apply decoder_reads_operand starts.1
  rw [Number.after, if_neg starts.2]
  exact reads.map Number.integer

theorem ne_nil_of_reads {taken : Bytes} {token : Token} (reads : decoder.Reads taken token)
    (rest : Bytes) : taken ++ rest ≠ [] := by
  intro nothing
  rcases List.append_eq_nil_iff.mp nothing with ⟨rfl, rfl⟩
  -- A token takes at least one byte, so it is not read from none of those that follow.
  have consumes := decoder_consumes { rest := [0] } (List.cons_ne_nil _ _)
  rw [← List.nil_append [0], reads] at consumes
  exact Nat.lt_irrefl 1 consumes

theorem decoder_reads_item {item : Item} (valid : item.IsValid) :
    ∃ token, item.Denotes token ∧ decoder.Reads item.encode token := by
  cases item with
  | integer value =>
      rcases Number.exists_encodeInteger_starts value with ⟨first, rest, encoded, starts, reads⟩
      refine ⟨_, .integer value, ?_⟩
      rw [Item.encode, encoded]
      exact decoder_reads_integer starts reads
  | long value =>
      exact ⟨_, .long value,
        decoder_reads_integer ⟨by decide, by decide⟩ (Number.integerAfter_reads_long value)⟩
  | real text =>
      rcases valid with ⟨characters, short, isNumber⟩
      rcases Option.isSome_iff_exists.mp isNumber with ⟨numeral, number⟩
      have reads := Number.readReal_reads characters short number
      refine ⟨_, .real number, decoder_reads_operand (by decide) ?_⟩
      rw [Number.after, if_pos rfl]
      exact reads.map Number.real
  | operator opcode =>
      rcases valid with ⟨low, notEscape⟩
      rcases Option.isSome_iff_exists.mp (Operator.isSome_ofOpcode? low notEscape) with
        ⟨operator, known⟩
      refine ⟨_, .operator known, decoder_reads ?_⟩
      rw [after, escape, if_neg notEscape, if_pos low, known]
      exact .pure _
  | escaped opcode =>
      rcases Option.isSome_iff_exists.mp valid with ⟨operator, known⟩
      refine ⟨_, .escaped known, decoder_reads ?_⟩
      rw [after, if_pos rfl]
      refine Number.reads_byte ?_
      rw [known]
      exact .pure _

end Token

/-! Reading all items. -/

theorem tokensFrom_of_reads {taken rest : Bytes} {token : Token} {position : Nat}
    (reads : Token.decoder.Reads taken token) :
    tokensFrom { rest := taken ++ rest, position } =
      .ok token :: tokensFrom { rest, position := position + taken.length } := by
  rw [tokensFrom, dif_neg (Token.ne_nil_of_reads reads rest), reads]

theorem tokensFrom_encode {items : List Item} (valid : ∀ item ∈ items, item.IsValid)
    (position : Nat) :
    ∃ tokens, List.Forall₂ Item.Denotes items tokens ∧
      tokensFrom { rest := encode items, position } = tokens.map .ok := by
  induction items generalizing position with
  | nil =>
      refine ⟨[], .nil, ?_⟩
      rw [tokensFrom]
      exact dif_pos rfl
  | cons item items induction =>
      rw [List.forall_mem_cons] at valid
      rcases Token.decoder_reads_item valid.1 with ⟨token, denotes, reads⟩
      rcases induction valid.2 (position + item.encode.length) with ⟨tokens, others, read⟩
      refine ⟨token :: tokens, .cons denotes others, ?_⟩
      rw [encode, List.flatMap_cons, tokensFrom_of_reads reads, List.map_cons, ← read]
      rfl

/-- The tokens of a written DICT are those that its items stand for, one for each item and in
their order. -/
theorem tokens_encode {items : List Item} (valid : ∀ item ∈ items, item.IsValid) :
    ∃ tokens, List.Forall₂ Item.Denotes items tokens ∧
      Dict.tokens (encode items) = tokens.map .ok :=
  tokensFrom_encode valid 0

/-- An integer of two bytes, a real with a negative power of ten, and operators of both kinds. -/
theorem tokens_encode_entries :
    let items : List Item :=
      [.integer (-1131), .real "-2.25E-3", .operator 10, .long 5, .escaped 9]
    (∀ item ∈ items, item.IsValid) ∧
      ∃ tokens, List.Forall₂ Item.Denotes items tokens ∧
        Dict.tokens (encode items) = tokens.map .ok := by
  intro items
  have valid : ∀ item ∈ items, item.IsValid := by
    decide +kernel
  exact ⟨valid, tokens_encode valid⟩

end Dict

end Letterform.Cff
