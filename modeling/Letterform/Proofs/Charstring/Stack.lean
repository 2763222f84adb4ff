import Letterform.Charstring.Stack
import Mathlib.Data.List.Basic

/-!
The operand stack as a list, from the bottom to the top. What is pushed comes last, and
so does what is popped.
-/

namespace Letterform.Charstring

open Cff (Fault)

namespace Stack

theorem ext {first second : Stack} (same : first.toList = second.toList) : first = second := by
  rcases first with ⟨entries, bound⟩
  rcases second with ⟨others, otherBound⟩
  have same : entries = others := Array.ext' same
  subst same
  rfl

theorem length_toList (stack : Stack) : stack.toList.length = stack.size := rfl

theorem exists_toList {operands : List Operand} (bound : operands.length ≤ stackLimit) :
    ∃ stack : Stack, stack.toList = operands :=
  ⟨{ entries := operands.toArray, size_le := bound }, rfl⟩

theorem toList_push {stack : Stack} (room : stack.size < stackLimit) (operand : Operand) :
    (stack.push operand).toList = stack.toList ++ [operand] := by
  have space : stack.entries.size < stackLimit := room
  simp only [push, space, dif_pos, toList, Array.toList_push]

theorem toList_push_eq_take (stack : Stack) (operand : Operand) :
    (stack.push operand).toList = (stack.toList ++ [operand]).take stackLimit := by
  have bound : stack.toList.length ≤ stackLimit := stack.size_le
  by_cases room : stack.size < stackLimit
  · rw [toList_push room, List.take_of_length_le]
    rw [List.length_append, length_toList, List.length_singleton]
    exact room
  · have full : ¬stack.entries.size < stackLimit := room
    have length : stack.toList.length = stackLimit := Nat.le_antisymm bound (Nat.le_of_not_lt room)
    rw [push, dif_neg full, List.take_append_of_le_length (Nat.le_of_eq length.symm),
      List.take_of_length_le bound]

theorem size_push (stack : Stack) (operand : Operand) :
    (stack.push operand).size = min (stack.size + 1) stackLimit := by
  have bound : stack.size ≤ stackLimit := stack.size_le
  by_cases room : stack.size < stackLimit
  · rw [← length_toList, toList_push room, List.length_append, length_toList,
      List.length_singleton]
    omega
  · have full : ¬stack.entries.size < stackLimit := room
    rw [push, dif_neg full]
    omega

theorem pop_eq_ok_iff {stack rest : Stack} {operand : Operand} :
    stack.pop = .ok (operand, rest) ↔ stack.toList = rest.toList ++ [operand] := by
  constructor
  · intro popped
    simp only [pop] at popped
    split at popped
    · next top =>
        cases popped
        rw [← Array.getLast?_toList] at top
        simp only [toList, Array.toList_pop]
        exact (List.dropLast_append_getLast? _ top).symm
    · cases popped
  · intro whole
    have top : stack.entries.back? = some operand := by
      rw [← Array.getLast?_toList]
      exact (congrArg List.getLast? whole).trans List.getLast?_concat
    simp only [pop, top]
    congr 2
    apply ext
    simp only [toList, Array.toList_pop] at whole ⊢
    rw [whole, List.dropLast_concat]

theorem pop_push {stack : Stack} (room : stack.size < stackLimit) (operand : Operand) :
    (stack.push operand).pop = .ok (operand, stack) :=
  pop_eq_ok_iff.mpr (toList_push room operand)

theorem toFixedList_push {stack : Stack} (room : stack.size < stackLimit) (operand : Operand) :
    (stack.push operand).toFixedList = stack.toFixedList ++ [operand.toFixed] := by
  rw [toFixedList, toList_push room, List.map_append]
  rfl

theorem takeFirst_of_cons {stack rest : Stack} {operand : Operand}
    (whole : stack.toList = operand :: rest.toList) : stack.takeFirst = .ok (operand, rest) := by
  have bottom : stack.entries[0]? = some operand := by
    rw [← Array.getElem?_toList]
    exact congrArg (·[0]?) whole
  simp only [takeFirst, get, bottom, bind, Except.bind, pure, Except.pure]
  congr 2
  apply ext
  simp only [toList] at whole ⊢
  rw [Array.toList_extract, List.extract_eq_take_drop, whole, List.drop_one, List.tail_cons]
  apply List.take_of_length_le
  rw [← Array.length_toList, whole]
  exact Nat.le_refl _

theorem duplicate_eq_ok_iff {stack result : Stack} :
    stack.duplicate = .ok result ↔
      ∃ operand rest, stack.pop = .ok (operand, rest) ∧ result = stack.push operand := by
  simp only [duplicate, pop]
  cases stack.entries.back? with
  | none => exact ⟨nofun, nofun⟩
  | some operand =>
      constructor
      · intro duplicated
        cases duplicated
        exact ⟨operand, _, rfl, rfl⟩
      · rintro ⟨_, _, popped, rfl⟩
        cases popped
        rfl

theorem exists_of_exchange {stack result : Stack} (exchanged : stack.exchange = .ok result) :
    ∃ front below top, stack.toList = front ++ [below, top] := by
  simp only [exchange, requireSize, bind, Except.bind] at exchanged
  split at exchanged
  · cases exchanged
  · next enough =>
      have length : stack.toList.length = stack.size := stack.length_toList
      have pair : (stack.toList.drop (stack.size - 2)).length = 2 := by
        rw [List.length_drop]
        split at enough
        · cases enough
        · omega
      rcases List.length_eq_two.mp pair with ⟨below, top, ends⟩
      exact ⟨stack.toList.take (stack.size - 2), below, top,
        by rw [← ends, List.take_append_drop]⟩

theorem exchange_of_pair {stack : Stack} {front : List Operand} {below top : Operand}
    (whole : stack.toList = front ++ [below, top]) :
    ∃ result, stack.exchange = .ok result ∧ result.toList = front ++ [top, below] := by
  have size : stack.entries.size = front.length + 2 := by
    rw [← Array.length_toList]
    exact (congrArg List.length whole).trans List.length_append
  have enough : ¬stack.size < 2 := by
    show ¬stack.entries.size < 2
    omega
  simp only [exchange, requireSize, if_neg enough, bind, Except.bind, pure, Except.pure]
  refine ⟨_, rfl, ?_⟩
  have first : stack.size - 2 = front.length := by
    show stack.entries.size - 2 = _
    omega
  have second : stack.size - 1 = front.length + 1 := by
    show stack.entries.size - 1 = _
    omega
  have entries : stack.entries = (front ++ [below, top]).toArray := Array.ext' whole
  simp only [toList, first, second, entries]
  simp [Array.swapIfInBounds]

theorem ok_of_discarded {result : Except Fault Stack} {value : Unit} {stack : Stack}
    (equal : (do return ((), ← result)) = (.ok (value, stack) : Except Fault (Unit × Stack))) :
    result = .ok stack ∧ value = () := by
  cases result with
  | ok stack =>
      cases equal
      exact ⟨rfl, rfl⟩
  | error fault => cases equal

end Stack

end Letterform.Charstring
