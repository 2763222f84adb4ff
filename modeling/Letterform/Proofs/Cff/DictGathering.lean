import Letterform.Cff.Dict.Entry
import Letterform.Proofs.Cff.DictEntries

/-!
The entries of a DICT as they are gathered from its tokens. Operands are kept until an operator
takes them, and the first malformed token is the end. An operator whose operands are missing or
out of range has a fault for an entry, and the operators behind it have entries of their own.
-/

namespace Letterform

namespace Decoder.FailsWith

variable {ε α β : Type} {allowed : ε → Prop}

theorem map {decoder : Decoder ε α} (fails : decoder.FailsWith allowed) (transform : α → β) :
    (transform <$> decoder).FailsWith allowed :=
  fails.bind fun value => .pure (transform value)

theorem ofExcept {result : Except ε α} (fails : ∀ fault, result = .error fault → allowed fault) :
    (Decoder.ofExcept result).FailsWith allowed := by
  cases result with
  | ok value => exact .pure value
  | error fault => exact .fail (fails fault rfl)

end Decoder.FailsWith

namespace Cff

namespace Dict

/-! Two kinds of faults. -/

inductive IsTokenFault : Fault → Prop
  | number : IsTokenFault .invalidNumber
  | operator (opcode : UInt8) : IsTokenFault (.dictOperator opcode)
  | missingBytes (offset : Nat) : IsTokenFault (.outOfBounds offset)

inductive IsOperandFault : Fault → Prop
  | missing : IsOperandFault .stackUnderflow
  | outOfRange (cause : Malformation) : IsOperandFault (.read (.malformed cause))

theorem IsOperandFault.not_isTokenFault {fault : Fault} (isOperandFault : IsOperandFault fault) :
    ¬IsTokenFault fault := by
  cases isOperandFault with
  | missing => nofun
  | outOfRange cause => nofun

end Dict

open Dict (IsTokenFault IsOperandFault)

namespace Number

theorem read_failsWith (α : Type) [Packed α] :
    (monadLift (Decoder.read α) : Decoder Fault α).FailsWith IsTokenFault := by
  intro cursor fault next equal
  rcases (regular_lift .read).fails cursor fault next equal with ⟨offset, rfl⟩
  exact .missingBytes offset

theorem integerAfter_failsWith (first : UInt8) : (integerAfter first).FailsWith IsTokenFault := by
  simp only [integerAfter]
  split
  · exact .pure _
  · split
    · exact (read_failsWith UInt8).bind fun _ => .pure _
    · split
      · exact (read_failsWith UInt8).bind fun _ => .pure _
      · split
        · exact (read_failsWith Int16).bind fun _ => .pure _
        · split
          · exact read_failsWith Int32
          · exact .fail .number

theorem addHalfByte_error {text : List Char} {half : Nat} {fault : Fault}
    (failed : addHalfByte text half = .error fault) : fault = .invalidNumber := by
  simp only [addHalfByte] at failed
  split at failed
  · cases failed
  · split at failed
    · cases failed
      rfl
    · split at failed
      · cases failed
        rfl
      · cases failed

theorem addByte_error {text : List Char} {byte : UInt8} {fault : Fault}
    (failed : addByte text byte = .error fault) : fault = .invalidNumber := by
  simp only [addByte] at failed
  cases first : addHalfByte text (byte.toNat / 16) with
  | error other =>
      rw [first] at failed
      cases failed
      exact addHalfByte_error first
  | ok added =>
      rw [first] at failed
      rcases added with ⟨text, complete⟩
      cases complete with
      | true => cases failed
      | false => exact addHalfByte_error failed

theorem realText_failsWith (bytes : Nat) (text : List Char) :
    (realText bytes text).FailsWith IsTokenFault := by
  induction bytes generalizing text with
  | zero => exact .fail .number
  | succ bytes induction =>
      apply (read_failsWith UInt8).bind
      intro byte
      have adds : (Decoder.ofExcept (addByte text byte)).FailsWith IsTokenFault := by
        apply Decoder.FailsWith.ofExcept
        intro fault failed
        rw [addByte_error failed]
        exact .number
      apply adds.bind
      intro added
      rcases added with ⟨text, complete⟩
      cases complete with
      | true => exact .pure text
      | false => exact induction text

theorem after_failsWith (first : UInt8) : (after first).FailsWith IsTokenFault := by
  rw [after]
  split
  · apply Decoder.FailsWith.map
    apply (realText_failsWith _ _).bind
    intro text
    split
    · exact .pure _
    · exact .fail .number
  · exact (integerAfter_failsWith first).map Number.integer

end Number

namespace Dict

namespace Token

theorem operatorOf_failsWith (operator : Option Operator) (opcode : UInt8) :
    (operatorOf operator opcode).FailsWith IsTokenFault := by
  cases operator with
  | none => exact .fail (.operator opcode)
  | some operator => exact .pure _

theorem decoder_failsWith : decoder.FailsWith IsTokenFault := by
  apply (Number.read_failsWith UInt8).bind
  intro first
  rw [after]
  split
  · exact (Number.read_failsWith UInt8).bind fun second => operatorOf_failsWith _ second
  · split
    · exact operatorOf_failsWith _ first
    · exact (Number.after_failsWith first).map Token.operand

end Token

/-! Faults of operands. -/

def FailsByOperands {α : Type} (result : Except Fault α) : Prop :=
  ∀ fault, result = .error fault → IsOperandFault fault

namespace FailsByOperands

variable {α β : Type}

theorem ok (value : α) : FailsByOperands (.ok value) := by
  intro fault impossible
  cases impossible

theorem error {fault : Fault} (isOperandFault : IsOperandFault fault) :
    FailsByOperands (.error fault : Except Fault α) := by
  intro other equal
  cases equal
  exact isOperandFault

theorem bind {first : Except Fault α} {next : α → Except Fault β} (fails : FailsByOperands first)
    (failsNext : ∀ value, FailsByOperands (next value)) : FailsByOperands (first >>= next) := by
  cases first with
  | error fault => exact .error (fails fault rfl)
  | ok value => exact failsNext value

theorem map {result : Except Fault α} (fails : FailsByOperands result) (transform : α → β) :
    FailsByOperands (result.map transform) := by
  cases result with
  | error fault => exact .error (fails fault rfl)
  | ok value => exact .ok (transform value)

end FailsByOperands

namespace Operands

variable (operands : List Number)

theorem last_fails : FailsByOperands (last operands) := by
  rw [last]
  split
  · exact .ok _
  · exact .error .missing

theorem get_fails (position : Nat) : FailsByOperands (get operands position) := by
  rw [get]
  split
  · exact .ok _
  · exact .error .missing

theorem integer_fails : FailsByOperands (integer operands) :=
  (last_fails operands).bind fun _ => .ok _

theorem offset_fails : FailsByOperands (offset operands) := by
  apply (integer_fails operands).bind
  intro value
  split
  · exact .error (.outOfRange _)
  · exact .ok _

theorem range_fails : FailsByOperands (range operands) := by
  apply (get_fails operands 0).bind
  intro length
  apply (get_fails operands 1).bind
  intro start
  simp only
  split
  · exact .error (.outOfRange _)
  · exact .ok _

theorem vector_fails (size : Nat) : FailsByOperands (vector operands size) := by
  simp only [vector]
  split
  · exact .ok _
  · exact .error .missing

theorem collection_fails : FailsByOperands (collection operands) :=
  (get_fails operands 0).bind fun _ =>
    (get_fails operands 1).bind fun _ => (get_fails operands 2).bind fun _ => .ok _

theorem value_fails (shape : Shape) : FailsByOperands (value operands shape) := by
  cases shape with
  | string => exact (integer_fails operands).map _
  | integer => exact integer_fails operands
  | count => exact (integer_fails operands).map _
  | real => exact (last_fails operands).bind fun _ => .ok _
  | flag => exact (integer_fails operands).map _
  | offset => exact offset_fails operands
  | range => exact range_fails operands
  | box => exact vector_fails operands 4
  | matrix => exact vector_fails operands 6
  | deltas => exact .ok _
  | collection => exact collection_fails operands
  | ignored => exact .ok _

end Operands

theorem Entry.ofOperands_fails (operator : Operator) (operands : List Number) :
    FailsByOperands (ofOperands operator operands) :=
  (Operands.value_fails operands operator.shape).map _

/-! Gathering. -/

structure Gathering where
  entries : List (Except Fault Entry) := []
  operands : List Number := []
  isOver : Bool := false

namespace Gathering

/-- Goes on by a token. An operator takes the first operands, as many as are kept for it. -/
def takeIn (gathering : Gathering) (token : Except Fault Token) : Gathering :=
  if gathering.isOver then gathering
  else match token with
    | .ok (.operand number) => { gathering with operands := gathering.operands ++ [number] }
    | .ok (.operator operator) =>
        { gathering with
          entries := gathering.entries ++
            [Entry.ofOperands operator (gathering.operands.take operandLimit)]
          operands := [] }
    | .error fault =>
        { gathering with entries := gathering.entries ++ [.error fault], isOver := true }

variable {entries : List (Except Fault Entry)} {operands : List Number}

theorem foldl_over (tokens : List (Except Fault Token)) :
    tokens.foldl takeIn { entries, operands, isOver := true } =
      { entries, operands, isOver := true } := by
  induction tokens with
  | nil => rfl
  | cons token tokens induction => exact induction

theorem foldl_operands (numbers : List Number) :
    (operandTokens numbers).foldl takeIn { entries, operands } =
      { entries, operands := operands ++ numbers } := by
  induction numbers generalizing operands with
  | nil => rw [List.append_nil]; rfl
  | cons number numbers induction =>
      have others : (operandTokens numbers).foldl takeIn
          { entries, operands := operands ++ [number] } =
          { entries, operands := operands ++ [number] ++ numbers } := induction
      rwa [List.append_assoc] at others

end Gathering

def gather (tokens : List (Except Fault Token)) : List (Except Fault Entry) :=
  (tokens.foldl Gathering.takeIn {}).entries

theorem Operands.push_take (operands : List Number) (number : Number) :
    push (operands.take operandLimit) number = (operands ++ [number]).take operandLimit := by
  rw [push, List.length_take]
  by_cases room : operands.length < operandLimit
  · rw [if_pos (by omega), List.take_of_length_le (Nat.le_of_lt room),
      List.take_of_length_le (by rw [List.length_append]; exact room)]
  · rw [if_neg (by omega), List.take_append_of_le_length (Nat.le_of_not_lt room)]

theorem foldl_tokensFrom (cursor : Cursor) (entries : List (Except Fault Entry))
    (operands : List Number) :
    ((tokensFrom cursor).foldl Gathering.takeIn { entries, operands }).entries =
      entries ++ entriesFrom (operands.take operandLimit) cursor := by
  fun_induction tokensFrom cursor generalizing entries operands with
  | case1 cursor ended =>
      rw [entriesFrom, dif_pos ended, List.append_nil]
      rfl
  | case2 cursor ahead induction =>
      rw [entriesFrom, dif_neg ahead, List.foldl_cons]
      cases (Token.decoder.run cursor).1 with
      | error fault => exact congrArg Gathering.entries (Gathering.foldl_over _)
      | ok token =>
          cases token with
          | operand number =>
              simp only [Operands.push_take]
              exact induction entries (operands ++ [number])
          | operator operator =>
              have others := induction
                (entries ++ [Entry.ofOperands operator (operands.take operandLimit)]) []
              rwa [List.append_assoc] at others

theorem entries_eq_gather (bytes : Bytes) : entries bytes = gather (tokens bytes) := by
  rw [gather, tokens, foldl_tokensFrom]
  rfl

theorem length_tokensFrom (cursor : Cursor) :
    (tokensFrom cursor).length ≤ cursor.rest.length := by
  fun_induction tokensFrom cursor with
  | case1 cursor ended => exact Nat.zero_le _
  | case2 cursor ahead induction =>
      have consumed := Token.decoder_consumes cursor ahead
      rw [List.length_cons]
      omega

namespace Gathering

theorem entries_foldl (tokens : List (Except Fault Token)) (entries : List (Except Fault Entry))
    (operands : List Number) :
    (tokens.foldl takeIn { entries, operands }).entries =
      entries ++ (tokens.foldl takeIn { operands }).entries := by
  induction tokens generalizing entries operands with
  | nil => exact (List.append_nil entries).symm
  | cons token tokens induction =>
      cases token with
      | error fault =>
          exact (congrArg Gathering.entries (foldl_over tokens)).trans
            (congrArg (entries ++ Gathering.entries ·) (foldl_over tokens)).symm
      | ok token =>
          cases token with
          | operand number => exact induction entries (operands ++ [number])
          | operator operator =>
              let entry := Entry.ofOperands operator (operands.take operandLimit)
              have all := induction (entries ++ [entry]) []
              have alone := induction [entry] []
              rw [List.append_assoc, ← alone] at all
              exact all

theorem foldl_read (read : List Token) (entries : List (Except Fault Entry))
    (operands : List Number) :
    ∃ found kept, (read.map Except.ok).foldl takeIn { entries, operands } =
      { entries := entries ++ found, operands := kept } ∧
        ∀ fault, .error fault ∈ found → IsOperandFault fault := by
  induction read generalizing entries operands with
  | nil => exact ⟨[], operands, by rw [List.append_nil]; rfl, nofun⟩
  | cons token read induction =>
      cases token with
      | operand number => exact induction entries (operands ++ [number])
      | operator operator =>
          let entry := Entry.ofOperands operator (operands.take operandLimit)
          rcases induction (entries ++ [entry]) [] with ⟨found, kept, equal, faults⟩
          rw [List.append_assoc] at equal
          refine ⟨entry :: found, kept, equal, ?_⟩
          intro fault present
          rcases List.mem_cons.mp present with same | present
          · exact Entry.ofOperands_fails operator _ fault same.symm
          · exact faults fault present

theorem length_foldl (tokens : List (Except Fault Token)) (gathering : Gathering) :
    (tokens.foldl takeIn gathering).entries.length ≤
      gathering.entries.length + tokens.length := by
  induction tokens generalizing gathering with
  | nil => exact Nat.le_refl _
  | cons token tokens induction =>
      have step : (gathering.takeIn token).entries.length ≤ gathering.entries.length + 1 := by
        simp only [takeIn]
        split
        · exact Nat.le_succ _
        · split <;> simp
      have rest := induction (gathering.takeIn token)
      rw [List.foldl_cons, List.length_cons]
      omega

end Gathering

def NoneWaits (read : List Token) : Prop := ∀ number, read.getLast? ≠ some (.operand number)

theorem noneWaits_nil : NoneWaits [] := fun _ => (Option.some_ne_none _).symm

theorem foldl_of_noneWaits {read : List Token} (complete : NoneWaits read) :
    (read.map Except.ok).foldl Gathering.takeIn {} = { entries := gather (read.map .ok) } := by
  rcases List.eq_nil_or_concat read with rfl | ⟨front, last, rfl⟩
  · rfl
  · rw [List.concat_eq_append] at complete ⊢
    cases last with
    | operand number => exact absurd List.getLast?_concat (complete number)
    | operator operator =>
        rcases Gathering.foldl_read front [] [] with ⟨found, kept, equal, -⟩
        rw [gather, List.map_append, List.foldl_append, equal]
        rfl

theorem gather_complete {read : List Token} (complete : NoneWaits read) (numbers : List Number)
    (operator : Operator) (behind : List (Except Fault Token)) :
    gather (read.map .ok ++ (operandTokens numbers ++ .ok (.operator operator) :: behind)) =
      gather (read.map .ok) ++
        Entry.ofOperands operator (numbers.take operandLimit) :: gather behind := by
  rw [gather, List.foldl_append, foldl_of_noneWaits complete, List.foldl_append,
    Gathering.foldl_operands, List.nil_append, List.foldl_cons]
  refine (Gathering.entries_foldl behind _ []).trans ?_
  rw [List.append_assoc]
  rfl

theorem gather_malformed (read : List Token) (fault : Fault)
    (behind : List (Except Fault Token)) :
    gather (read.map .ok ++ .error fault :: behind) = gather (read.map .ok) ++ [.error fault] := by
  rcases Gathering.foldl_read read [] [] with ⟨found, kept, equal, -⟩
  rw [gather, gather, List.foldl_append, equal, List.foldl_cons]
  exact congrArg Gathering.entries (Gathering.foldl_over behind)

theorem isOperandFault_of_mem_gather {read : List Token} {fault : Fault}
    (present : .error fault ∈ gather (read.map .ok)) : IsOperandFault fault := by
  rcases Gathering.foldl_read read [] [] with ⟨found, kept, equal, faults⟩
  rw [gather, equal] at present
  exact faults fault present

theorem read_or_malformed (tokens : List (Except Fault Token)) :
    (∃ read : List Token, tokens = read.map .ok) ∨
      ∃ (read : List Token) (fault : Fault) (behind : List (Except Fault Token)),
        tokens = read.map .ok ++ .error fault :: behind := by
  induction tokens with
  | nil => exact .inl ⟨[], rfl⟩
  | cons token tokens induction =>
      cases token with
      | error fault => exact .inr ⟨[], fault, tokens, rfl⟩
      | ok token =>
          rcases induction with ⟨read, rfl⟩ | ⟨read, fault, behind, rfl⟩
          · exact .inl ⟨token :: read, rfl⟩
          · exact .inr ⟨token :: read, fault, behind, rfl⟩

theorem nothing_behind_malformed {tokens : List (Except Fault Token)}
    {front behind : List (Except Fault Entry)} {fault : Fault}
    (equal : gather tokens = front ++ .error fault :: behind) (isTokenFault : IsTokenFault fault) :
    behind = [] ∧ ∀ other, .error other ∈ front → IsOperandFault other := by
  rcases read_or_malformed tokens with ⟨read, rfl⟩ | ⟨read, first, others, rfl⟩
  · have present : .error fault ∈ gather (read.map .ok) := by
      rw [equal]
      exact List.mem_append_right _ List.mem_cons_self
    exact absurd isTokenFault (isOperandFault_of_mem_gather present).not_isTokenFault
  · rw [gather_malformed] at equal
    rcases List.eq_nil_or_concat behind with rfl | ⟨between, last, rfl⟩
    · have same : gather (read.map .ok) = front := (List.append_inj' equal rfl).1
      exact ⟨rfl, fun other present => isOperandFault_of_mem_gather (same ▸ present)⟩
    · -- Another entry is the last one, so the fault is among those of the tokens in front.
      rw [List.concat_eq_append, ← List.cons_append, ← List.append_assoc] at equal
      have same := (List.append_inj' equal rfl).1
      have present : .error fault ∈ gather (read.map .ok) := by
        rw [same]
        exact List.mem_append_right _ List.mem_cons_self
      exact absurd isTokenFault (isOperandFault_of_mem_gather present).not_isTokenFault

theorem isTokenFault_of_mem_tokensFrom {cursor : Cursor} {fault : Fault}
    (present : .error fault ∈ tokensFrom cursor) : IsTokenFault fault := by
  fun_induction tokensFrom cursor with
  | case1 cursor ended => cases present
  | case2 cursor ahead induction =>
      rcases List.mem_cons.mp present with same | present
      · exact Token.decoder_failsWith cursor fault _ (Prod.ext same.symm rfl)
      · exact induction present

/-! The entries of bytes. -/

/-- How entries come from tokens. -/
structure AreGathered (tokens : List (Except Fault Token)) (entries : List (Except Fault Entry)) :
    Prop where
  whole : entries = gather tokens
  length_le : entries.length ≤ tokens.length
  /-- Whether or not an operator can make use of its operands, the tokens behind it have the
  entries that they have alone. -/
  goesOn : ∀ (read : List Token) (numbers : List Number) (operator : Operator)
      (behind : List (Except Fault Token)), NoneWaits read →
    tokens = read.map .ok ++ (operandTokens numbers ++ .ok (.operator operator) :: behind) →
      entries = gather (read.map .ok) ++
        Entry.ofOperands operator (numbers.take operandLimit) :: gather behind
  /-- The first malformed token comes last, whatever tokens are behind it. -/
  stops : ∀ (read : List Token) (fault : Fault) (behind : List (Except Fault Token)),
    tokens = read.map .ok ++ .error fault :: behind →
    entries = gather (read.map .ok) ++ [.error fault]
  /-- Nothing follows a malformed token, and nothing in front of it is malformed. -/
  once : ∀ front fault behind, entries = front ++ .error fault :: behind →
    IsTokenFault fault → behind = [] ∧ ∀ other, .error other ∈ front → IsOperandFault other

/-- There are no more tokens than bytes, whose faults are those of malformed tokens, and the
entries are gathered from them. -/
theorem entries_areGathered (bytes : Bytes) :
    (tokens bytes).length ≤ bytes.length ∧
      (∀ fault, .error fault ∈ tokens bytes → IsTokenFault fault) ∧
      AreGathered (tokens bytes) (entries bytes) := by
  refine ⟨length_tokensFrom _, fun fault => isTokenFault_of_mem_tokensFrom, ?_⟩
  rw [entries_eq_gather]
  constructor
  case whole => rfl
  case length_le =>
    have bound := Gathering.length_foldl (tokens bytes) {}
    rwa [List.length_nil, Nat.zero_add] at bound
  case goesOn =>
    intro read numbers operator behind complete equal
    rw [equal]
    exact gather_complete complete numbers operator behind
  case stops =>
    intro read fault behind equal
    rw [equal]
    exact gather_malformed read fault behind
  case once =>
    intro front fault behind equal isTokenFault
    exact nothing_behind_malformed equal isTokenFault

/-- A version without an operand, an offset, and an escape with nothing behind it. -/
theorem entries_areGathered_missingOperand :
    let bytes : Bytes := [0, 139, 17, 12]
    let front : List (Except Fault Entry) :=
      [.error .stackUnderflow, .ok ⟨.charstringsOffset, (0 : Nat)⟩]
    (tokens bytes).length ≤ bytes.length ∧ NoneWaits [] ∧ IsTokenFault (.outOfBounds 4) ∧
      entries bytes = front ++ [.error (.outOfBounds 4)] ∧
      ∀ other, .error other ∈ front → IsOperandFault other := by
  intro bytes front
  rcases entries_areGathered bytes with ⟨length, -, gathered⟩
  have read : tokens [0, 139, 17, 12] = [.ok (.operator .version), .ok (.operand (.integer 0)),
      .ok (.operator .charstringsOffset), .error (.outOfBounds 4)] := by
    rw [tokens]
    iterate 4 rw [tokensFrom, dif_neg (by decide)]
    rw [tokensFrom, dif_pos (by decide)]
    rfl
  have whole : entries bytes = front ++ [.error (.outOfBounds 4)] :=
    gathered.goesOn [] [] .version _ noneWaits_nil read
  have once := gathered.once front _ [] whole (.missingBytes 4)
  exact ⟨length, noneWaits_nil, .missingBytes 4, whole, once.2⟩

end Dict

end Cff

end Letterform
