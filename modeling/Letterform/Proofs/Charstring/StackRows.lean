import Letterform.Proofs.Charstring.StackRequests

/-!
Operands in two rows of fixed length: one has the bits and the other says which of them are
fixed-point numbers. Operations on the top only move the height, so that the rows still have what
was taken from them. Nobody sees it: the rows are viewed by the list of the operands below the
height.
-/

namespace Letterform.Charstring

open Cff (Fault Number)

namespace Operand

def bits : Operand → Int32
  | .integer value => value
  | .fixed value => value.bits

def isFixed : Operand → Bool
  | .integer _ => false
  | .fixed _ => true

def ofRows (bits : Int32) (isFixed : Bool) : Operand :=
  if isFixed then .fixed ⟨bits⟩ else .integer bits

theorem ofRows_bits (operand : Operand) : ofRows operand.bits operand.isFixed = operand := by
  cases operand with
  | integer value => rfl
  | fixed value => rfl

end Operand

namespace Stack

/-- What the rows have at the height and above is left over. -/
structure Rows where
  bits : Vector Int32 stackLimit := Vector.replicate stackLimit 0
  isFixed : Vector Bool stackLimit := Vector.replicate stackLimit false
  height : Nat := 0
  height_le : height ≤ stackLimit := by decide

def moveDown {α : Type} {size height : Nat} (row : Vector α size) (bound : height ≤ size) :
    Vector α size :=
  Vector.ofFn fun place =>
    if inside : place.val + 1 < height then row[place.val + 1] else row[place]

namespace Rows

def operandAt (rows : Rows) (position : Nat) (inside : position < stackLimit) : Operand :=
  .ofRows rows.bits[position] rows.isFixed[position]

theorem lt_limit {rows : Rows} {position : Nat} (below : position < rows.height) :
    position < stackLimit :=
  Nat.lt_of_lt_of_le below rows.height_le

def operands (rows : Rows) : List Operand :=
  List.ofFn fun place : Fin rows.height => rows.operandAt place (lt_limit place.isLt)

def push (operand : Operand) (rows : Rows) : Rows :=
  if space : rows.height < stackLimit then
    { bits := rows.bits.set rows.height operand.bits
      isFixed := rows.isFixed.set rows.height operand.isFixed
      height := rows.height + 1
      height_le := space }
  else rows

def clear (rows : Rows) : Rows := { rows with height := 0, height_le := Nat.zero_le _ }

def get (position : Nat) (rows : Rows) : Except Fault Operand :=
  if below : position < rows.height then .ok (rows.operandAt position (lt_limit below))
  else .error (.stackAccess position)

def lower (rows : Rows) : Rows :=
  { rows with height := rows.height - 1, height_le := Nat.le_trans (Nat.sub_le ..) rows.height_le }

def shift (rows : Rows) : Rows :=
  { rows.lower with
    bits := moveDown rows.bits rows.height_le
    isFixed := moveDown rows.isFixed rows.height_le }

def swapTop (rows : Rows) (enough : 2 ≤ rows.height) : Rows :=
  have bound := rows.height_le
  { rows with
    bits := rows.bits.swap (rows.height - 2) (rows.height - 1)
    isFixed := rows.isFixed.swap (rows.height - 2) (rows.height - 1) }

def requireSize (count : Nat) (rows : Rows) : Except Fault Unit :=
  if rows.height < count then .error .stackUnderflow else .ok ()

def pop : Attempt Rows Operand := do
  let rows ← getThe Rows
  if isHeld : 0 < rows.height then
    -- The rows still have the operand.
    set rows.lower
    return rows.operandAt (rows.height - 1) (lt_limit (Nat.sub_one_lt_of_lt isHeld))
  else throw .stackUnderflow

def takeFirst : Attempt Rows Operand := do
  let bottom ← observe (get 0)
  modify shift
  return bottom

def exchange : Attempt Rows Unit := do
  let rows ← getThe Rows
  if enough : 2 ≤ rows.height then set (rows.swapTop enough) else throw .stackUnderflow

def duplicate : Attempt Rows Unit := do
  let rows ← getThe Rows
  if 0 < rows.height then
    let top ← observe (get (rows.height - 1))
    modify (push top)
  else throw .stackUnderflow

def fixedSlice (start count : Nat) (rows : Rows) : Except Fault (List Fixed) :=
  if rows.height < start + count then .error .stackUnderflow
  else .ok (List.zipWith (fun bits isFixed => (Operand.ofRows bits isFixed).toFixed)
    ((rows.bits.toList.drop start).take count) ((rows.isFixed.toList.drop start).take count))

def storage : Storage Rows where
  push := push
  clear := clear
  get := get
  pop := pop
  takeFirst := takeFirst
  exchange := exchange
  duplicate := duplicate
  requireSize := requireSize
  fixedSlice := fixedSlice
  size := height
  isEmpty rows := rows.height = 0
  hasOddSize rows := rows.height % 2 = 1

/-! The operands. -/

variable {rows : Rows}

theorem length_operands (rows : Rows) : rows.operands.length = rows.height :=
  List.length_ofFn

theorem getElem?_operands {position : Nat} (below : position < rows.height) :
    rows.operands[position]? = some (rows.operandAt position (lt_limit below)) := by
  rw [operands, List.getElem?_ofFn, dif_pos below]

theorem operands_eq {held : List Operand} (length : held.length = rows.height)
    (same : ∀ position (below : position < rows.height),
      held[position]? = some (rows.operandAt position (lt_limit below))) :
    rows.operands = held := by
  apply List.ext_getElem?
  intro position
  by_cases below : position < rows.height
  · rw [getElem?_operands below, same position below]
  · have above : rows.height ≤ position := Nat.le_of_not_lt below
    rw [List.getElem?_eq_none (rows.length_operands ▸ above),
      List.getElem?_eq_none (length ▸ above)]

theorem operands_push (operand : Operand) (rows : Rows) :
    (rows.push operand).operands =
      if rows.operands.length < stackLimit then rows.operands ++ [operand] else rows.operands := by
  rw [length_operands, push]
  split
  · next space =>
      apply operands_eq
      · rw [List.length_append, length_operands]
        rfl
      · intro position below
        simp only [operandAt, Vector.getElem_set]
        rcases Nat.lt_succ_iff_lt_or_eq.mp below with lower | equal
        · have other : rows.height ≠ position := by omega
          rw [List.getElem?_append_left (rows.length_operands ▸ lower), getElem?_operands lower,
            if_neg other, if_neg other]
          rfl
        · rw [if_pos equal.symm, if_pos equal.symm, Operand.ofRows_bits, equal,
            ← rows.length_operands, List.getElem?_concat_length]
  · rfl

theorem getLast?_operands (isHeld : 0 < rows.height) :
    rows.operands.getLast? =
      some (rows.operandAt (rows.height - 1) (lt_limit (Nat.sub_one_lt_of_lt isHeld))) := by
  rw [List.getLast?_eq_getElem?, length_operands, getElem?_operands (Nat.sub_one_lt_of_lt isHeld)]

theorem operands_lower (rows : Rows) : rows.lower.operands = rows.operands.dropLast := by
  apply operands_eq
  · rw [List.length_dropLast, length_operands]
    rfl
  · intro position below
    have below : position < rows.height - 1 := below
    rw [List.getElem?_dropLast, length_operands, if_pos below,
      getElem?_operands (Nat.lt_of_lt_of_le below (Nat.sub_le ..))]
    rfl

theorem operands_eq_cons (isHeld : 0 < rows.height) :
    rows.operands = rows.operandAt 0 (lt_limit isHeld) :: rows.shift.operands := by
  apply operands_eq
  · rw [List.length_cons, length_operands]
    exact Nat.succ_pred_eq_of_pos isHeld
  · intro position below
    cases position with
    | zero => rfl
    | succ position =>
        have inside : position < rows.shift.height := Nat.lt_sub_of_add_lt below
        rw [List.getElem?_cons_succ, getElem?_operands inside]
        simp only [operandAt, shift, moveDown, Vector.getElem_ofFn, dif_pos below]

theorem operandAt_swapTop (enough : 2 ≤ rows.height) {position : Nat}
    (inside : position < stackLimit) :
    (rows.swapTop enough).operandAt position inside =
      if position = rows.height - 2 then
        rows.operandAt (rows.height - 1) (lt_limit (Nat.sub_lt (by omega) (by decide)))
      else if position = rows.height - 1 then
        rows.operandAt (rows.height - 2) (lt_limit (Nat.sub_lt (by omega) (by decide)))
      else rows.operandAt position inside := by
  simp only [operandAt, swapTop, Vector.getElem_swap]
  split
  · rfl
  · split
    · rfl
    · rfl

theorem operands_swapTop (enough : 2 ≤ rows.height) {front : List Operand} {below top : Operand}
    (whole : rows.operands = front ++ [below, top]) :
    (rows.swapTop enough).operands = front ++ [top, below] := by
  have height : rows.height = front.length + 2 := by
    rw [← length_operands, whole, List.length_append]
    rfl
  apply operands_eq
  · rw [List.length_append]
    exact height.symm
  · intro position inside
    have inside : position < rows.height := inside
    have same := getElem?_operands inside
    rw [whole] at same
    rw [operandAt_swapTop]
    split
    · next isBelow =>
        have last : rows.height - 1 < rows.height := by omega
        have isTop := getElem?_operands last
        rw [← isTop, whole, height, isBelow, height]
        simp
    · split
      · next isTop =>
          have first : rows.height - 2 < rows.height := by omega
          have isBelow := getElem?_operands first
          rw [← isBelow, whole, height, isTop, height]
          simp
      · have lower : position < front.length := by omega
        rw [← same, List.getElem?_append_left lower, List.getElem?_append_left lower]

theorem operands_eq_take (rows : Rows) :
    rows.operands =
      (List.zipWith Operand.ofRows rows.bits.toList rows.isFixed.toList).take rows.height := by
  apply operands_eq
  · rw [List.length_take, List.length_zipWith, Vector.length_toList, Vector.length_toList,
      Nat.min_self, Nat.min_eq_left rows.height_le]
  · intro position below
    rw [List.getElem?_take_of_lt below, List.getElem?_zipWith, Vector.getElem?_toList,
      Vector.getElem?_toList, Vector.getElem?_eq_getElem (lt_limit below),
      Vector.getElem?_eq_getElem (lt_limit below)]
    rfl

theorem fixedSlice_operands (start count : Nat) (rows : Rows) :
    listed.fixedSlice start count rows.operands = fixedSlice start count rows := by
  simp only [listed, fixedSlice, length_operands]
  split
  · rfl
  · next inside =>
      have within : count ≤ rows.height - start := by omega
      rw [operands_eq_take, List.drop_take, List.take_take, Nat.min_eq_left within,
        List.drop_zipWith, List.take_zipWith, List.map_zipWith]

theorem eq_nil_of_not_held (empty : ¬0 < rows.height) : rows.operands = [] :=
  List.eq_nil_of_length_eq_zero (by rw [length_operands]; omega)

/-! What is left above the height cannot be seen. -/

theorem get_run {α : Type} (next : Rows → Attempt Rows α) (rows : Rows) :
    (getThe Rows >>= next).run.run rows = (next rows).run.run rows :=
  rfl

theorem observe_run {α β : Type} {reading : Rows → Except Fault α} (next : α → Attempt Rows β)
    {rows : Rows} :
    (observe reading >>= next).run.run rows = match reading rows with
      | .ok value => (next value).run.run rows
      | .error fault => (.error fault, rows) := by
  rw [ExceptT.run_bind, StateT.run_bind]
  have observed : (observe reading).run.run rows = (reading rows, rows) := rfl
  rw [observed]
  cases reading rows with
  | ok value => rfl
  | error fault => rfl

theorem get_operands (position : Nat) (rows : Rows) :
    listed.get position rows.operands = get position rows := by
  rw [get]
  split
  · next below => simp only [listed, getElem?_operands below]
  · next above =>
      have none : rows.operands[position]? = none :=
        List.getElem?_eq_none (rows.length_operands ▸ Nat.le_of_not_lt above)
      simp only [listed, none]

theorem pop_goesAlong : GoesAlong operands listed.pop pop := by
  intro rows
  rw [pop, get_run]
  by_cases isHeld : 0 < rows.height
  · rw [dif_pos isHeld]
    exact attempt_run_ok (by rw [getLast?_operands isHeld, ← operands_lower]; rfl)
  · rw [dif_neg isHeld]
    exact attempt_run_error (by rw [eq_nil_of_not_held isHeld]; rfl)

theorem takeFirst_goesAlong : GoesAlong operands listed.takeFirst takeFirst := by
  intro rows
  rw [takeFirst, observe_run, get]
  by_cases isHeld : 0 < rows.height
  · rw [dif_pos isHeld]
    exact attempt_run_ok (by rw [operands_eq_cons isHeld]; rfl)
  · rw [dif_neg isHeld]
    exact attempt_run_error (by rw [eq_nil_of_not_held isHeld])

theorem exchange_goesAlong : GoesAlong operands listed.exchange exchange := by
  intro rows
  rw [exchange, get_run]
  by_cases enough : 2 ≤ rows.height
  · rcases exists_pair (rows.length_operands ▸ enough) with ⟨front, below, top, whole⟩
    rw [dif_pos enough]
    have swapped := operands_swapTop enough whole
    exact attempt_run_ok (by rw [whole, swapLast_of_pair, ← swapped]; rfl)
  · have short : rows.operands.length < 2 := by
      rw [length_operands]
      exact Nat.lt_of_not_le enough
    rw [dif_neg enough]
    exact attempt_run_error (swapLast_of_short short)

theorem duplicate_goesAlong : GoesAlong operands listed.duplicate duplicate := by
  intro rows
  rw [duplicate, get_run]
  by_cases isHeld : 0 < rows.height
  · rw [if_pos isHeld, observe_run, get, dif_pos (Nat.sub_one_lt_of_lt isHeld)]
    apply attempt_run_ok
    rw [getLast?_operands isHeld]
    exact congrArg (fun held => Except.ok ((), held)) (operands_push _ rows).symm
  · rw [if_neg isHeld]
    exact attempt_run_error (by rw [eq_nil_of_not_held isHeld]; rfl)

theorem storage_isViewedBy : storage.IsViewedBy operands listed where
  push operand rows := (operands_push operand rows).symm
  clear _ := rfl
  get := get_operands
  pop := pop_goesAlong
  takeFirst := takeFirst_goesAlong
  exchange := exchange_goesAlong
  duplicate := duplicate_goesAlong
  requireSize count rows := by
    show listed.requireSize count rows.operands = requireSize count rows
    simp only [listed, length_operands, requireSize]
  fixedSlice := fixedSlice_operands
  size := length_operands
  isEmpty rows := by
    show rows.operands.isEmpty = decide (rows.height = 0)
    rw [← length_operands]
    cases rows.operands with
    | nil => rfl
    | cons bottom others => rfl
  hasOddSize rows := by
    show decide (rows.operands.length % 2 = 1) = decide (rows.height % 2 = 1)
    rw [length_operands]

theorem length_operands_le (rows : Rows) : rows.operands.length ≤ stackLimit :=
  rows.length_operands ▸ rows.height_le

end Rows

end Stack

end Letterform.Charstring
