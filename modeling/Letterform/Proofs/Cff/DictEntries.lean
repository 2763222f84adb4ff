import Letterform.Cff.Dict.Entry
import Letterform.Proofs.Cff.DictTokens

/-!
Entries of a DICT that stand one behind the other. A token is read from its own bytes only, and
an operator takes all operands, so an entry that is complete says the same wherever it stands.
-/

namespace Letterform

namespace Decoder.IsExact

variable {ε α β : Type}

theorem map {decoder : Decoder ε α} (exact : decoder.IsExact) (transform : α → β) :
    (transform <$> decoder).IsExact :=
  exact.bind fun value => .pure (transform value)

theorem ofExcept (result : Except ε α) : (Decoder.ofExcept result).IsExact := by
  cases result with
  | ok value => exact .pure value
  | error fault => exact .fail fault

end Decoder.IsExact

namespace Cff

namespace Number

theorem exact_read (α : Type) [Packed α] :
    (monadLift (Decoder.read α) : Decoder Fault α).IsExact :=
  (regular_lift .read).exact

theorem integerAfter_isExact (first : UInt8) : (integerAfter first).IsExact := by
  simp only [integerAfter]
  split
  · exact .pure _
  · split
    · exact (exact_read UInt8).bind fun _ => .pure _
    · split
      · exact (exact_read UInt8).bind fun _ => .pure _
      · split
        · exact (exact_read Int16).bind fun _ => .pure _
        · split
          · exact exact_read Int32
          · exact .fail _

theorem realText_isExact (bytes : Nat) (text : List Char) : (realText bytes text).IsExact := by
  induction bytes generalizing text with
  | zero => exact .fail _
  | succ bytes induction =>
      apply (exact_read UInt8).bind
      intro byte
      apply (Decoder.IsExact.ofExcept (addByte text byte)).bind
      intro added
      rcases added with ⟨text, complete⟩
      cases complete with
      | true => exact .pure text
      | false => exact induction text

theorem readReal_isExact : readReal.IsExact := by
  apply (realText_isExact _ _).bind
  intro text
  split
  · exact .pure _
  · exact .fail _

theorem after_isExact (first : UInt8) : (after first).IsExact := by
  rw [after]
  split
  · exact readReal_isExact.map Number.real
  · exact (integerAfter_isExact first).map Number.integer

end Number

namespace Dict

namespace Token

theorem operatorOf_isExact (operator : Option Operator) (opcode : UInt8) :
    (operatorOf operator opcode).IsExact := by
  cases operator with
  | none => exact .fail _
  | some operator => exact .pure _

theorem decoder_isExact : decoder.IsExact := by
  apply (Number.exact_read UInt8).bind
  intro first
  rw [after]
  split
  · exact (Number.exact_read UInt8).bind fun second => operatorOf_isExact _ second
  · split
    · exact operatorOf_isExact _ first
    · exact (Number.after_isExact first).map Token.operand

end Token

/-! Taking tokens apart. -/

theorem rest_eq_nil_of_tokensFrom {cursor : Cursor} (nothing : tokensFrom cursor = []) :
    cursor.rest = [] := by
  by_cases ended : cursor.rest = []
  · exact ended
  · rw [tokensFrom, dif_neg ended] at nothing
    cases nothing

theorem exists_reads_of_tokensFrom {bytes : Bytes} {position : Nat} {token : Token}
    {others : List (Except Fault Token)}
    (equal : tokensFrom { rest := bytes, position } = .ok token :: others) :
    ∃ taken rest next, bytes = taken ++ rest ∧ Token.decoder.Reads taken token ∧
      tokensFrom { rest, position := next } = others := by
  by_cases ended : bytes = []
  · rw [tokensFrom, dif_pos ended] at equal
    cases equal
  · rw [tokensFrom, dif_neg ended, List.cons.injEq] at equal
    rcases Token.decoder_isExact.place (Prod.ext equal.1 rfl) with ⟨taken, whole, reads, placed⟩
    refine ⟨taken, _, position + taken.length, whole, reads, ?_⟩
    rw [← placed]
    exact equal.2

section Reading

variable {taken rest : Bytes} {position : Nat}

theorem entriesFrom_of_reads_operand {number : Number} (operands : List Number)
    (reads : Token.decoder.Reads taken (.operand number)) :
    entriesFrom operands { rest := taken ++ rest, position } =
      entriesFrom (Operands.push operands number)
        { rest, position := position + taken.length } := by
  rw [entriesFrom, dif_neg (Token.ne_nil_of_reads reads rest), reads]

theorem entriesFrom_of_reads_operator {operator : Operator} (operands : List Number)
    (reads : Token.decoder.Reads taken (.operator operator)) :
    entriesFrom operands { rest := taken ++ rest, position } =
      Entry.ofOperands operator operands ::
        entriesFrom [] { rest, position := position + taken.length } := by
  rw [entriesFrom, dif_neg (Token.ne_nil_of_reads reads rest), reads]

end Reading

/-! Complete entries. -/

def operandTokens (numbers : List Number) : List (Except Fault Token) :=
  numbers.map fun number => .ok (.operand number)

def IsComplete (bytes : Bytes) (numbers : List Number) (operator : Operator) : Prop :=
  tokens bytes = operandTokens numbers ++ [.ok (.operator operator)]

/-- By induction on the operands, with any that are kept before them. -/
theorem entriesFrom_of_tokensFrom {bytes : Bytes} {numbers : List Number} {operator : Operator}
    {position : Nat}
    (equal : tokensFrom { rest := bytes, position } =
      operandTokens numbers ++ [.ok (.operator operator)])
    (kept : List Number) (rest : Bytes) (start : Nat) :
    ∃ next, entriesFrom kept { rest := bytes ++ rest, position := start } =
      Entry.ofOperands operator (numbers.foldl Operands.push kept) ::
        entriesFrom [] { rest, position := next } := by
  induction numbers generalizing bytes position kept start with
  | nil =>
      rcases exists_reads_of_tokensFrom equal with ⟨taken, behind, next, rfl, reads, nothing⟩
      have nothingBehind : behind = [] := rest_eq_nil_of_tokensFrom nothing
      rw [nothingBehind, List.append_nil, entriesFrom_of_reads_operator kept reads]
      exact ⟨_, rfl⟩
  | cons number numbers induction =>
      rcases exists_reads_of_tokensFrom equal with ⟨taken, others, next, rfl, reads, read⟩
      rw [List.append_assoc, entriesFrom_of_reads_operand kept reads]
      exact induction read _ _

/-- The bytes of one entry that can be decoded, with nothing behind its operator. -/
structure WrittenEntry where
  bytes : Bytes
  entry : Entry
  complete : ∃ numbers operator, IsComplete bytes numbers operator
  decodes : entries bytes = [.ok entry]

theorem entries_of_complete {bytes : Bytes} {numbers : List Number} {operator : Operator}
    (complete : IsComplete bytes numbers operator) :
    entries bytes = [Entry.ofOperands operator (numbers.foldl Operands.push [])] := by
  rcases entriesFrom_of_tokensFrom complete [] [] 0 with ⟨next, read⟩
  rw [List.append_nil] at read
  rw [entries, Cursor.ofBytes, read, entriesFrom]
  exact congrArg _ (dif_pos rfl)

/-! Entries written item by item. -/

theorem Item.Denotes.unique : Relator.RightUnique Item.Denotes := by
  intro item token other denotes otherDenotes
  cases denotes with
  | integer value =>
      cases otherDenotes
      rfl
  | long value =>
      cases otherDenotes
      rfl
  | real number =>
      cases otherDenotes with
      | real other => rw [Option.some.inj (number.symm.trans other)]
  | operator known =>
      cases otherDenotes with
      | operator other => rw [Option.some.inj (known.symm.trans other)]
  | escaped known =>
      cases otherDenotes with
      | escaped other => rw [Option.some.inj (known.symm.trans other)]

theorem isComplete_encode {items : List Item} (valid : ∀ item ∈ items, item.IsValid)
    {numbers : List Number} {operator : Operator}
    (denotes : List.Forall₂ Item.Denotes items
      (numbers.map Token.operand ++ [Token.operator operator])) :
    IsComplete (encode items) numbers operator := by
  rcases tokensFrom_encode valid 0 with ⟨tokens, others, read⟩
  have same := Item.Denotes.unique.forall₂ others denotes
  have read : Dict.tokens (encode items) = tokens.map .ok := read
  rw [IsComplete, read, same, List.map_append, List.map_map]
  rfl

namespace WrittenEntry

def ofItems (items : List Item) (numbers : List Number) (entry : Entry)
    (valid : ∀ item ∈ items, item.IsValid)
    (denotes : List.Forall₂ Item.Denotes items
      (numbers.map Token.operand ++ [Token.operator entry.operator]))
    (decodes : Entry.ofOperands entry.operator (numbers.foldl Operands.push []) = .ok entry) :
    WrittenEntry where
  bytes := encode items
  entry
  complete := ⟨numbers, entry.operator, isComplete_encode valid denotes⟩
  decodes := by rw [entries_of_complete (isComplete_encode valid denotes), decodes]

def allBytes (written : List WrittenEntry) : Bytes := written.flatMap WrittenEntry.bytes

theorem exists_entriesFrom (written : WrittenEntry) (rest : Bytes) (start : Nat) :
    ∃ next, entriesFrom [] { rest := written.bytes ++ rest, position := start } =
      .ok written.entry :: entriesFrom [] { rest, position := next } := by
  rcases written.complete with ⟨numbers, operator, complete⟩
  have alone : [Entry.ofOperands operator (numbers.foldl Operands.push [])] =
      [.ok written.entry] := (entries_of_complete complete).symm.trans written.decodes
  rcases entriesFrom_of_tokensFrom complete [] rest start with ⟨next, read⟩
  exact ⟨next, by rw [read, List.singleton_inj.mp alone]⟩

theorem entriesFrom_allBytes (written : List WrittenEntry) (start : Nat) :
    entriesFrom [] { rest := allBytes written, position := start } =
      written.map fun one => .ok one.entry := by
  induction written generalizing start with
  | nil =>
      rw [entriesFrom]
      exact dif_pos rfl
  | cons one written induction =>
      rcases one.exists_entriesFrom (allBytes written) start with ⟨next, read⟩
      rw [List.map_cons, ← induction next, ← read]
      rfl

theorem collect_allBytes {α : Type} (update : α → Entry → α) (start : α)
    (written : List WrittenEntry) :
    collect update start (allBytes written) =
      .ok ((written.map WrittenEntry.entry).foldl update start) := by
  have read : entries (allBytes written) = written.map fun one => .ok one.entry :=
    entriesFrom_allBytes written 0
  rw [collect, read]
  clear read
  induction written generalizing start with
  | nil => rfl
  | cons one written induction => exact induction (update start one.entry)

end WrittenEntry

end Dict

end Cff

end Letterform
