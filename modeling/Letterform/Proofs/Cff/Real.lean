import Letterform.Proofs.Cff.Number

/-!
Reals in DICTs. The text of a real is packed into half bytes, two of them to a byte, and is
read back from them. The half byte that ends the text may be either half of the last byte.
-/

namespace Letterform.Cff.Number

/-! Half bytes. -/

inductive Spells : List Nat → List Char → Prop
  | empty : Spells [] []
  | more {half : Nat} {halves : List Nat} {piece text : List Char}
      (stands : halfByteText? half = some piece) (others : Spells halves text) :
      Spells (half :: halves) (piece ++ text)

def IsRealCharacter (character : Char) : Prop :=
  character.isDigit = true ∨ character = '.' ∨ character = '-' ∨ character = 'E'

instance (character : Char) : Decidable (IsRealCharacter character) :=
  inferInstanceAs (Decidable (_ ∨ _))

theorem halfByteText?_digit {digit : Char} (isDigit : digit.isDigit = true) :
    halfByteText? (digit.toNat - '0'.toNat) = some [digit] := by
  simp only [Char.isDigit, Bool.and_eq_true, decide_eq_true_eq, UInt32.le_iff_toNat_le] at isDigit
  have low : '0'.toNat ≤ digit.toNat := isDigit.1
  have high : digit.toNat ≤ '9'.toNat := isDigit.2
  have nine : '9'.toNat - '0'.toNat = 9 := rfl
  rw [halfByteText?, if_pos (by omega), Nat.add_sub_cancel' low, Char.ofNat_toNat]

theorem halfByteText?_point : halfByteText? 10 = some ['.'] := rfl

theorem halfByteText?_mark : halfByteText? 11 = some ['E'] := rfl

theorem halfByteText?_negativeMark : halfByteText? 12 = some ['E', '-'] := rfl

theorem halfByteText?_minus : halfByteText? 14 = some ['-'] := rfl

/-- A minus sign behind the mark of a power of ten is in the half byte of the mark. -/
theorem spells_halfBytes {text : List Char} (characters : ∀ c ∈ text, IsRealCharacter c) :
    Spells (halfBytes text) text := by
  fun_induction halfBytes text with
  | case1 => exact .empty
  | case2 rest induction =>
      rw [List.forall_mem_cons, List.forall_mem_cons] at characters
      exact .more halfByteText?_negativeMark (induction characters.2.2)
  | case3 rest _ induction =>
      rw [List.forall_mem_cons] at characters
      exact .more halfByteText?_mark (induction characters.2)
  | case4 rest induction =>
      rw [List.forall_mem_cons] at characters
      exact .more halfByteText?_point (induction characters.2)
  | case5 rest induction =>
      rw [List.forall_mem_cons] at characters
      exact .more halfByteText?_minus (induction characters.2)
  | case6 digit rest _ _ _ _ isDigit induction =>
      rw [List.forall_mem_cons] at characters
      exact .more (halfByteText?_digit isDigit) (induction characters.2)
  | case7 digit rest noNegativeMark noMark noPoint noMinus notDigit =>
      rw [List.forall_mem_cons] at characters
      rcases characters.1 with isDigit | isPoint | isMinus | isMark
      · exact absurd isDigit notDigit
      · exact absurd isPoint noPoint
      · exact absurd isMinus noMinus
      · exact absurd isMark noMark

theorem addHalfByte_of_stands {half : Nat} {before piece : List Char}
    (stands : halfByteText? half = some piece)
    (room : before.length + piece.length ≤ textLimit) :
    addHalfByte before half = .ok (before ++ piece, false) := by
  have notEnd : half ≠ terminator := by
    rintro rfl
    cases stands
  rw [addHalfByte, if_neg notEnd, stands]
  exact if_neg (Nat.not_lt.mpr room)

theorem addHalfByte_terminator (before : List Char) :
    addHalfByte before terminator = .ok (before, true) := by
  rw [addHalfByte, if_pos rfl]

theorem bounds_of_stands {half : Nat} {piece : List Char}
    (stands : halfByteText? half = some piece) : half < 16 ∧ 0 < piece.length := by
  simp only [halfByteText?] at stands
  repeat' split at stands
  all_goals cases stands
  all_goals exact ⟨by omega, Nat.succ_pos _⟩

theorem Spells.length_le {halves : List Nat} {text : List Char} (spells : Spells halves text) :
    halves.length ≤ text.length := by
  induction spells with
  | empty => exact Nat.le_refl 0
  | more stands _ induction =>
      have positive := (bounds_of_stands stands).2
      rw [List.length_cons, List.length_append]
      omega

theorem toNat_packed {first second : Nat} (firstSmall : first < 16) (secondSmall : second < 16) :
    (UInt8.ofNat (16 * first + second)).toNat / 16 = first ∧
      (UInt8.ofNat (16 * first + second)).toNat % 16 = second := by
  rw [toNat_ofNat_byte (by omega)]
  omega

/-! Bytes of two half bytes. -/

theorem addByte_packed {first second : Nat} {before middle : List Char}
    {after : List Char × Bool} (firstSmall : first < 16) (secondSmall : second < 16)
    (addsFirst : addHalfByte before first = .ok (middle, false))
    (addsSecond : addHalfByte middle second = .ok after) :
    addByte before (UInt8.ofNat (16 * first + second)) = .ok after := by
  rcases toNat_packed firstSmall secondSmall with ⟨high, low⟩
  rw [addByte, high, low, addsFirst]
  exact addsSecond

theorem addByte_terminator (before : List Char) {second : Nat} (secondSmall : second < 16) :
    addByte before (UInt8.ofNat (16 * terminator + second)) = .ok (before, true) := by
  have small : terminator < 16 := by decide
  rw [addByte, (toNat_packed small secondSmall).1, addHalfByte_terminator]
  rfl

theorem realText_reads_last {bytes : Nat} {before text : List Char} {byte : UInt8}
    (adds : addByte before byte = .ok (text, true)) :
    (realText (bytes + 1) before).Reads [byte] text := by
  refine reads_byte ?_
  rw [adds]
  exact .pure text

theorem realText_reads_more {bytes : Nat} {before middle text : List Char} {byte : UInt8}
    {others : Bytes} (adds : addByte before byte = .ok (middle, false))
    (reads : (realText bytes middle).Reads others text) :
    (realText (bytes + 1) before).Reads (byte :: others) text := by
  refine reads_byte ?_
  rw [adds]
  exact reads

theorem realText_reads {bytes : Nat} {before : List Char} {halves : List Nat} {text : List Char}
    (spells : Spells halves text) (room : before.length + text.length ≤ textLimit)
    (enough : halves.length < 2 * bytes) :
    (realText bytes before).Reads (packHalfBytes (halves ++ [terminator])) (before ++ text) := by
  have small : terminator < 16 := by decide
  cases bytes with
  | zero => exact absurd enough (Nat.not_lt_zero _)
  | succ bytes =>
      cases spells with
      | empty =>
          rw [List.append_nil]
          exact realText_reads_last (addByte_terminator before small)
      | @more first halves piece text stands others =>
          have firstSmall := (bounds_of_stands stands).1
          rw [List.length_append] at room
          have addsFirst := addHalfByte_of_stands stands
            (show before.length + piece.length ≤ textLimit by omega)
          cases others with
          | empty =>
              rw [List.append_nil]
              exact realText_reads_last
                (addByte_packed firstSmall small addsFirst (addHalfByte_terminator _))
          | @more second halves nextPiece text nextStands others =>
              have secondSmall := (bounds_of_stands nextStands).1
              rw [List.length_append] at room
              have addsSecond := addHalfByte_of_stands nextStands
                (show (before ++ piece).length + nextPiece.length ≤ textLimit by
                  rw [List.length_append]
                  omega)
              have left : (before ++ piece ++ nextPiece).length + text.length ≤ textLimit := by
                rw [List.length_append, List.length_append]
                omega
              rw [List.length_cons, List.length_cons] at enough
              have split : before ++ (piece ++ (nextPiece ++ text)) =
                  before ++ piece ++ nextPiece ++ text := by
                simp only [List.append_assoc]
              rw [split]
              exact realText_reads_more
                (addByte_packed firstSmall secondSmall addsFirst addsSecond)
                (realText_reads others left (by omega))

theorem readReal_reads {text : List Char} {numeral : Decimal.Numeral}
    (characters : ∀ c ∈ text, IsRealCharacter c) (short : text.length ≤ textLimit)
    (number : Decimal.Numeral.ofChars? text = some numeral) :
    readReal.Reads (packHalfBytes (halfBytes text ++ [terminator])) numeral.toFloat := by
  have spells := spells_halfBytes characters
  have halfCount := spells.length_le
  have limit : textLimit = 64 := rfl
  have room : ([] : List Char).length + text.length ≤ textLimit := by
    simpa using short
  have enough : (halfBytes text).length < 2 * (textLimit / 2 + 1) := by omega
  have reads := realText_reads spells room enough
  rw [List.nil_append] at reads
  rw [readReal, ← List.append_nil (packHalfBytes _)]
  refine reads.bind ?_
  rw [number]
  exact .pure _

end Letterform.Cff.Number
