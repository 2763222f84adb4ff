import Letterform.Proofs.Charstring.Nesting
import Letterform.Proofs.Charstring.Shadow
import Letterform.Proofs.Charstring.Stack
import Letterform.Proofs.Number.Fixed

/-!
Calls as inlining. A stretch of a charstring between two tokens may be moved to a
subroutine: the charstring with a call in place of the stretch gives the same commands
and the same summary, or fails in the same way. The call takes up a place on the
stack for its operand and one frame for as long as the stretch lasts.
-/

namespace Letterform

namespace Cff.Index

theorem lt_size_of_get {index : Index} {position : Nat} {object : Bytes}
    (equal : index.get position = .ok object) : position < index.size := by
  apply Nat.lt_of_not_le
  intro outside
  have missing : index.offset (position + 1) =
      .error (.outOfBounds ((position + 1) * index.offsetSize.toNat)) := by
    simp only [offset, if_pos (Nat.lt_succ_of_le outside)]
  simp only [get, missing, bind, Except.bind] at equal
  split at equal <;> cases equal

theorem size_lt (index : Index) : index.size < 65536 := index.count.toNat_lt

theorem toInt_subroutineBias (count : Nat) (charstringType : Int32) :
    (subroutineBias count charstringType).toInt =
      if charstringType = 1 then 0
      else if count < 1240 then 107
      else if count < 33900 then 1131
      else 32768 := by
  simp only [subroutineBias]
  split
  · rfl
  · split
    · rfl
    · split <;> rfl

end Cff.Index

namespace Charstring

open Cff (Fault Index Number nestingLimit)

/-! Performing a call. -/

namespace Subroutines

variable {subroutines : Subroutines} {scope : SubroutineScope} {index : Index} {number : Nat}

def operand (subroutines : Subroutines) (index : Index) (number : Nat) : Int :=
  number - (Index.subroutineBias index.size subroutines.charstringType).toInt

def callBytes (subroutines : Subroutines) (scope : SubroutineScope) (index : Index)
    (number : Nat) : Bytes :=
  encode [.integer (.ofInt (subroutines.operand index number)), .operator scope.opcode]

def HoldsInteger (value : Int) : Prop := -32768 ≤ value ∧ value ≤ 32767

theorem operand_holdsInteger (biasType : subroutines.charstringType = 2)
    (present : number < index.size) : HoldsInteger (subroutines.operand index number) := by
  have bound := index.size_lt
  have typed : ¬subroutines.charstringType = 1 := by
    rw [biasType]
    decide
  simp only [HoldsInteger, operand, Index.toInt_subroutineBias, if_neg typed]
  split
  · omega
  · split <;> omega

theorem toInt_ofInt_operand (holds : HoldsInteger (subroutines.operand index number)) :
    (Int32.ofInt (subroutines.operand index number)).toInt = subroutines.operand index number := by
  rcases holds with ⟨low, high⟩
  rw [Int32.toInt_ofInt]
  exact Int.bmod_eq_of_le (by simp; omega) (by simp; omega)

theorem biased_operand (holds : HoldsInteger (subroutines.operand index number))
    (present : number < index.size) :
    (subroutines.biased index (.ofInt (subroutines.operand index number))).toInt = number := by
  have bound := index.size_lt
  have sum : subroutines.operand index number +
      (Index.subroutineBias index.size subroutines.charstringType).toInt = number := by
    simp only [operand]
    omega
  rw [biased, toInt_ofInt_operand holds, sum, toInt_saturate32]
  omega

theorem body_of_get {value : Int32} {object : Bytes} (same : value.toInt = number)
    (read : index.get number = .ok object) : body index value = .ok object := by
  have present := Index.lt_size_of_get read
  have nonnegative : ¬value < 0 := by
    rw [Int32.lt_iff_toInt_lt, same]
    exact Int.not_lt.mpr (Int.natCast_nonneg number)
  simp only [body, nonnegative, same, Int.toNat_natCast, Nat.not_le.mpr present, decide_false,
    Bool.or_self, Bool.false_eq_true, if_false, read]

theorem callee_operand (found : subroutines.index scope = .ok index) {object : Bytes}
    (read : index.get number = .ok object)
    (holds : HoldsInteger (subroutines.operand index number)) {stack : Stack}
    (room : stack.size < stackLimit) :
    subroutines.callee scope
        (stack.push (.integer (.ofInt (subroutines.operand index number)))) =
      .ok (object, stack) := by
  have whole := body_of_get (biased_operand holds (Index.lt_size_of_get read)) read
  simp only [callee, found, Stack.pop_push room, bind, Except.bind, pure, Except.pure]
  rw [Operand.toInt32, whole]

end Subroutines

namespace Configuration

variable {subroutines : Subroutines} {scope : SubroutineScope} {index : Index} {number : Nat}

theorem advance?_callBytes (found : subroutines.index scope = .ok index) {object : Bytes}
    (read : index.get number = .ok object)
    (holds : Subroutines.HoldsInteger (subroutines.operand index number)) {machine : Machine}
    (room : machine.stack.size < stackLimit) (behind : Bytes) (position : Nat) :
    ∃ after, advance? subroutines 2
        ⟨{ rest := subroutines.callBytes scope index number ++ behind, position }, [], machine⟩ =
      some ⟨.ofBytes object, [{ rest := behind, position := after }], machine⟩ := by
  have resolved := Subroutines.callee_operand found read holds room
  have exactInteger := Subroutines.toInt_ofInt_operand holds
  have bytes : subroutines.callBytes scope index number =
      Number.encodeInteger (.ofInt (subroutines.operand index number)) ++ [scope.opcode] := by
    simp only [Subroutines.callBytes, encode, List.flatMap_cons, List.flatMap_nil, Item.encode,
      List.append_nil]
  rw [bytes, List.append_assoc]
  generalize Int32.ofInt (subroutines.operand index number) = operand at exactInteger resolved
  have pushed := Token.decoder_reads_integer
    (by rw [exactInteger]; exact holds.1) (by rw [exactInteger]; exact holds.2)
    ([scope.opcode] ++ behind) position
  have called := Token.decoder_reads_call scope behind
    (position + (Number.encodeInteger operand).length)
  have calls : Transition subroutines
      ⟨_, [], { machine with stack := machine.stack.push (.integer operand) }⟩
      ⟨.ofBytes object, [_], machine⟩ :=
    .call called resolved (by decide)
  refine ⟨position + (Number.encodeInteger operand).length + 1, ?_⟩
  apply advance?_succ.mpr
  refine ⟨_, .operand pushed, ?_⟩
  apply advance?_succ.mpr
  exact ⟨_, calls, rfl⟩

theorem exists_end_of_body {body stretch : Bytes}
    (holdsStretch : body = stretch ∨ body = stretch ++ [returnOpcode]) :
    ∃ rest, body = stretch ++ rest ∧ (rest = [] ∨ rest = [returnOpcode]) := by
  rcases holdsStretch with rfl | rfl
  · exact ⟨[], (List.append_nil body).symm, .inl rfl⟩
  · exact ⟨[returnOpcode], rfl, .inr rfl⟩

/-- A subroutine may end by a return or by its bytes. -/
theorem advance?_leave (subroutines : Subroutines) {rest : Bytes} (ends : rest = [] ∨ rest = [returnOpcode])
    (position : Nat) (caller : Cursor) (machine : Machine) :
    advance? subroutines 1 ⟨{ rest, position }, [caller], machine⟩ =
      some ⟨caller, [], machine⟩ := by
  apply advance?_succ.mpr
  rcases ends with rfl | rfl
  · exact ⟨_, .exhaust rfl, rfl⟩
  · exact ⟨_, .return (Token.decoder_reads_return [] position), rfl⟩

end Configuration

def Evaluation.SameUpToOffsets (first second : Evaluation) : Prop :=
  first.commands = second.commands ∧
    first.summary.mapError Fault.kind = second.summary.mapError Fault.kind

theorem Evaluation.sameUpToOffsets_of_run {subroutines : Subroutines} {first second : Bytes}
    {last other : Configuration} (agrees : last.Agrees other)
    (firstRun : (Configuration.ofCharstring first).run subroutines = last.run subroutines)
    (secondRun : (Configuration.ofCharstring second).run subroutines = other.run subroutines) :
    (evaluate subroutines first).SameUpToOffsets (evaluate subroutines second) := by
  have same := Configuration.run_agrees agrees subroutines
  rw [evaluate_eq_ofResult, evaluate_eq_ofResult, firstRun, secondRun]
  generalize last.run subroutines = result at same ⊢
  generalize other.run subroutines = otherResult at same ⊢
  rcases result with ⟨result, machine⟩
  rcases otherResult with ⟨otherResult, otherMachine⟩
  rcases same with ⟨sameResult, rfl⟩
  refine ⟨rfl, ?_⟩
  cases result with
  | ok ending =>
      cases otherResult with
      | ok other => rfl
      | error fault => cases sameResult
  | error fault =>
      cases otherResult with
      | ok other => cases sameResult
      | error other => exact congrArg Except.error (Except.error.inj sameResult)

open Charstring.Configuration

/-- A stretch of a charstring may be called instead. Suppose that the run comes to the start and
to the end of the stretch between two tokens of the charstring itself, with a free place on the
stack at the start and at most nine calls open within. If a subroutine holds the stretch, with or
without a return behind it, and its operand is an integer of 16 bits, as those of charstrings of
type 2 are, then the call gives the same. -/
theorem evaluate_call {subroutines : Subroutines} (scope : SubroutineScope) {index : Index}
    (number : Nat) (front stretch behind : Bytes) {body : Bytes} (start length : Nat)
    {entry exit : Configuration} (found : subroutines.index scope = .ok index)
    (read : index.get number = .ok body)
    (holdsStretch : body = stretch ∨ body = stretch ++ [returnOpcode])
    (entered : (ofCharstring (front ++ (stretch ++ behind))).advance? subroutines start =
      some entry)
    (atStart : entry.StandsAt (stretch ++ behind)) (room : entry.machine.stack.size ≤ 47)
    (passed : entry.advance? subroutines length = some exit) (atEnd : exit.StandsAt behind)
    (shallow : ∀ count ≤ length, ∀ middle, entry.advance? subroutines count = some middle →
      middle.callers.length ≤ 9) :
    (subroutines.charstringType = 2 →
      Subroutines.HoldsInteger (subroutines.operand index number)) ∧
    (Subroutines.HoldsInteger (subroutines.operand index number) →
      (evaluate subroutines (front ++ (stretch ++ behind))).SameUpToOffsets
        (evaluate subroutines (front ++ (subroutines.callBytes scope index number ++ behind)))) := by
  refine ⟨fun type2 => Subroutines.operand_holdsInteger type2 (Index.lt_size_of_get read), ?_⟩
  intro holds
  -- Both runs come to the stretch and to the call in the same way.
  have sameDepth (earlier : Nat) (_ : earlier ≤ start) (middle : Configuration)
      (reached : (ofCharstring (front ++ (stretch ++ behind))).advance? subroutines earlier =
        some middle) : middle.callers.length + 0 ≤ nestingLimit := advance?_callers_le reached
  have shadowsFront := Shadows.ofCharstring front (stretch ++ behind)
    (subroutines.callBytes scope index number ++ behind)
  rcases shadowsFront.advance? entered (Nat.le_of_eq (congrArg _ atStart.left.symm)) sameDepth with
    ⟨atCall, calledFrom, shadowsEntry⟩
  rcases shadowsEntry.at_tail atStart with ⟨position, otherPosition, isEntry, rfl⟩
  -- The call is performed, and the body then runs above the caller.
  rcases advance?_callBytes found read holds (Nat.lt_succ_of_le room) behind otherPosition with
    ⟨after, called⟩
  rcases exists_end_of_body holdsStretch with ⟨rest, rfl, ends⟩
  have shadowsBody : Shadows behind rest [{ rest := behind, position := after }] entry
      ⟨.ofBytes (stretch ++ rest), [{ rest := behind, position := after }], entry.machine⟩ := by
    rw [isEntry]
    exact ⟨.outermost ⟨stretch, position, 0, rfl, rfl⟩, rfl⟩
  have deeper (count : Nat) (bound : count ≤ length) (middle : Configuration)
      (reached : entry.advance? subroutines count = some middle) :
      middle.callers.length + 1 ≤ nestingLimit := by
    have within := shallow count bound middle reached
    exact Nat.succ_le_succ within
  rcases shadowsBody.advance? passed (Nat.le_of_eq (congrArg _ atEnd.left.symm)) deeper with
    ⟨inside, ran, shadowsExit⟩
  rcases shadowsExit.at_tail atEnd with ⟨exitPosition, restPosition, isExit, rfl⟩
  -- The body is left, and both runs stand behind the stretch.
  have returned := advance?_leave subroutines ends restPosition
    { rest := behind, position := after } exit.machine
  have agrees : exit.Agrees ⟨{ rest := behind, position := after }, [], exit.machine⟩ := by
    rw [isExit]
    exact ⟨⟨rfl, rfl⟩, .nil, rfl⟩
  refine Evaluation.sameUpToOffsets_of_run agrees ?_ ?_
  · rw [run_of_advance? entered, run_of_advance? passed]
  · rw [run_of_advance? calledFrom, run_of_advance? called, run_of_advance? ran,
      run_of_advance? returned]

/-- A subroutine that ends by a return moves to a point whose first coordinate is its caller's. -/
theorem evaluate_call_move :
    (evaluate { globals := ⟨1, 1, [1, 4], [159, 21, 11]⟩ } [149, 159, 21, 14]).SameUpToOffsets
      (evaluate { globals := ⟨1, 1, [1, 4], [159, 21, 11]⟩ } [149, 32, 29, 14]) := by
  refine (evaluate_call .globals 0 [149] [159, 21] [14] 1 2 rfl rfl (.inr rfl) rfl
    ⟨rfl, rfl⟩ (by decide) rfl ⟨rfl, rfl⟩ ?_).2 ⟨by decide, by decide⟩
  intro count bound middle reached
  rcases (show count = 0 ∨ count = 1 ∨ count = 2 by omega) with rfl | rfl | rfl
  · rw [← Option.some.inj reached]
    exact Nat.zero_le 9
  · rw [← Option.some.inj reached]
    exact Nat.zero_le 9
  · rw [← Option.some.inj reached]
    exact Nat.zero_le 9

end Charstring

end Letterform
