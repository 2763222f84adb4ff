import Letterform.Proofs.Charstring.Stack

/-!
A stack by what it answers. Operands can be kept in different ways, and one way is a view of
another if all operations go along with it: whoever asks cannot tell the two apart. The plainest
way is a list of the operands. A stack is viewed by the list of its operands.
-/

namespace Letterform.Charstring

open Cff (Fault Number)

namespace Stack

abbrev Attempt (σ : Type) := ExceptT Fault (StateM σ)

/-- The operations on operands that are kept in some way. Only those that change the state and
can fail are attempts. -/
structure Storage (σ : Type) where
  push : Operand → σ → σ
  clear : σ → σ
  get : (position : Nat) → σ → Except Fault Operand
  pop : Attempt σ Operand
  takeFirst : Attempt σ Operand
  exchange : Attempt σ Unit
  duplicate : Attempt σ Unit
  requireSize : (count : Nat) → σ → Except Fault Unit
  fixedSlice : (start count : Nat) → σ → Except Fault (List Fixed)
  size : σ → Nat
  isEmpty : σ → Bool
  hasOddSize : σ → Bool

inductive Request
  | pushInteger (value : Int32)
  | pushFixed (value : Fixed)
  | pushNumber (number : Number)
  | clear
  | getInteger (position : Nat)
  | getFixed (position : Nat)
  | getNumber (position : Nat)
  | popInteger
  | popNumber
  | takeFirst
  | exchange
  | duplicate
  | requireSize (count : Nat)
  | fixedSlice (start count : Nat)
  | size
  | isEmpty
  | hasOddSize

inductive Answer
  | done
  | integer (value : Int32)
  | fixed (value : Fixed)
  | number (number : Number)
  | slice (values : List Fixed)
  | count (size : Nat)
  | truth (holds : Bool)

variable {σ τ α β : Type}

def change (operation : σ → σ) : Attempt σ Unit := ExceptT.mk fun state => (.ok (), operation state)

def observe (reading : σ → Except Fault α) : Attempt σ α := ExceptT.mk fun state =>
  (reading state, state)

def Request.ask (storage : Storage σ) : Request → Attempt σ Answer
  | .pushInteger value => (fun _ => .done) <$> change (storage.push (.integer value))
  | .pushFixed value => (fun _ => .done) <$> change (storage.push (.fixed value))
  | .pushNumber number => (fun _ => .done) <$> change (storage.push (.ofNumber number))
  | .clear => (fun _ => .done) <$> change storage.clear
  | .getInteger position =>
      (fun operand => .integer operand.toInt32) <$> observe (storage.get position)
  | .getFixed position => (fun operand => .fixed operand.toFixed) <$> observe (storage.get position)
  | .getNumber position =>
      (fun operand => .number operand.toNumber) <$> observe (storage.get position)
  | .popInteger => (fun operand => .integer operand.toInt32) <$> storage.pop
  | .popNumber => (fun operand => .number operand.toNumber) <$> storage.pop
  | .takeFirst => (fun operand => .fixed operand.toFixed) <$> storage.takeFirst
  | .exchange => (fun _ => .done) <$> storage.exchange
  | .duplicate => (fun _ => .done) <$> storage.duplicate
  | .requireSize count => (fun _ => .done) <$> observe (storage.requireSize count)
  | .fixedSlice start count => .slice <$> observe (storage.fixedSlice start count)
  | .size => observe fun state => .ok (.count (storage.size state))
  | .isEmpty => observe fun state => .ok (.truth (storage.isEmpty state))
  | .hasOddSize => observe fun state => .ok (.truth (storage.hasOddSize state))

def answers (storage : Storage σ) (requests : List Request) :
    StateM σ (List (Except Fault Answer)) :=
  requests.mapM fun request => (request.ask storage).run

theorem run_map (attempt : Attempt σ α) (convert : α → β) (state : σ) :
    (convert <$> attempt).run.run state =
      ((attempt.run.run state).1.map convert, (attempt.run.run state).2) := by
  rw [ExceptT.run_map, StateT.run_map]
  rfl

/-! Views. -/

/-- An attempt gives the same on the view of a state as another one on the state, and what it
leaves is the view of what the other one leaves. -/
def GoesAlong (view : σ → τ) (viewed : Attempt τ α) (attempt : Attempt σ α) : Prop :=
  ∀ state, viewed.run.run (view state) =
    ((attempt.run.run state).1, view (attempt.run.run state).2)

structure Storage.IsViewedBy (storage : Storage σ) (view : σ → τ) (viewed : Storage τ) :
    Prop where
  push : ∀ operand state, viewed.push operand (view state) = view (storage.push operand state)
  clear : ∀ state, viewed.clear (view state) = view (storage.clear state)
  get : ∀ position state, viewed.get position (view state) = storage.get position state
  pop : GoesAlong view viewed.pop storage.pop
  takeFirst : GoesAlong view viewed.takeFirst storage.takeFirst
  exchange : GoesAlong view viewed.exchange storage.exchange
  duplicate : GoesAlong view viewed.duplicate storage.duplicate
  requireSize : ∀ count state,
    viewed.requireSize count (view state) = storage.requireSize count state
  fixedSlice : ∀ start count state,
    viewed.fixedSlice start count (view state) = storage.fixedSlice start count state
  size : ∀ state, viewed.size (view state) = storage.size state
  isEmpty : ∀ state, viewed.isEmpty (view state) = storage.isEmpty state
  hasOddSize : ∀ state, viewed.hasOddSize (view state) = storage.hasOddSize state

section

variable {storage : Storage σ} {view : σ → τ} {viewed : Storage τ}

theorem GoesAlong.map {first : Attempt τ α} {second : Attempt σ α}
    (along : GoesAlong view first second) (convert : α → β) :
    GoesAlong view (convert <$> first) (convert <$> second) := by
  intro state
  rw [run_map, run_map, along state]

theorem goesAlong_change {first : τ → τ} {second : σ → σ}
    (same : ∀ state, first (view state) = view (second state)) :
    GoesAlong view (change first) (change second) :=
  fun state => congrArg (Except.ok (), ·) (same state)

theorem goesAlong_observe {first : τ → Except Fault α} {second : σ → Except Fault α}
    (same : ∀ state, first (view state) = second state) :
    GoesAlong view (observe first) (observe second) :=
  fun state => congrArg (·, view state) (same state)

theorem Storage.IsViewedBy.ask (isViewed : storage.IsViewedBy view viewed) (request : Request) :
    GoesAlong view (request.ask viewed) (request.ask storage) := by
  cases request with
  | pushInteger value => exact (goesAlong_change (isViewed.push _)).map _
  | pushFixed value => exact (goesAlong_change (isViewed.push _)).map _
  | pushNumber number => exact (goesAlong_change (isViewed.push _)).map _
  | clear => exact (goesAlong_change isViewed.clear).map _
  | getInteger position => exact (goesAlong_observe (isViewed.get position)).map _
  | getFixed position => exact (goesAlong_observe (isViewed.get position)).map _
  | getNumber position => exact (goesAlong_observe (isViewed.get position)).map _
  | popInteger => exact isViewed.pop.map _
  | popNumber => exact isViewed.pop.map _
  | takeFirst => exact isViewed.takeFirst.map _
  | exchange => exact isViewed.exchange.map _
  | duplicate => exact isViewed.duplicate.map _
  | requireSize count => exact (goesAlong_observe (isViewed.requireSize count)).map _
  | fixedSlice start count => exact (goesAlong_observe (isViewed.fixedSlice start count)).map _
  | size => exact goesAlong_observe fun state => by rw [isViewed.size state]
  | isEmpty => exact goesAlong_observe fun state => by rw [isViewed.isEmpty state]
  | hasOddSize => exact goesAlong_observe fun state => by rw [isViewed.hasOddSize state]

theorem answers_cons (storage : Storage σ) (request : Request) (requests : List Request)
    (state : σ) :
    (answers storage (request :: requests)).run state =
      let asked := (request.ask storage).run.run state
      let others := (answers storage requests).run asked.2
      (asked.1 :: others.1, others.2) := by
  rw [answers, List.mapM_cons]
  rfl

/-- Answers can be given from the view alone. -/
theorem Storage.IsViewedBy.answers (isViewed : storage.IsViewedBy view viewed)
    (requests : List Request) (state : σ) :
    (Stack.answers viewed requests).run (view state) =
      (((Stack.answers storage requests).run state).1,
        view ((Stack.answers storage requests).run state).2) := by
  induction requests generalizing state with
  | nil => rfl
  | cons request requests induction =>
      have first := isViewed.ask request state
      simp only [answers_cons, first, induction]

end

/-! Operations that give a new state or fail. -/

def attempt (operation : σ → Except Fault (α × σ)) : Attempt σ α := ExceptT.mk fun state =>
  match operation state with
  | .ok (value, next) => (.ok value, next)
  | .error fault => (.error fault, state)

theorem attempt_run_ok {operation : σ → Except Fault (α × σ)} {state next : σ} {value : α}
    (given : operation state = .ok (value, next)) :
    (attempt operation).run.run state = (.ok value, next) := by
  simp only [attempt, ExceptT.run_mk, StateT.run, given]

theorem attempt_run_error {operation : σ → Except Fault (α × σ)} {state : σ} {fault : Fault}
    (failed : operation state = .error fault) :
    (attempt operation).run.run state = (.error fault, state) := by
  simp only [attempt, ExceptT.run_mk, StateT.run, failed]

theorem goesAlong_attempt {view : σ → τ} {viewed : τ → Except Fault (α × τ)}
    {operation : σ → Except Fault (α × σ)}
    (same : ∀ state, viewed (view state) =
      (operation state).map fun (value, next) => (value, view next)) :
    GoesAlong view (attempt viewed) (attempt operation) := by
  intro state
  cases given : operation state with
  | error fault =>
      rw [attempt_run_error given, attempt_run_error (by rw [same, given]; rfl)]
  | ok result => rw [attempt_run_ok given, attempt_run_ok (by rw [same, given]; rfl)]

def KeepsOnFault (attempt : Attempt σ α) : Prop :=
  ∀ state fault, (attempt.run.run state).1 = .error fault → (attempt.run.run state).2 = state

theorem KeepsOnFault.map {attempt : Attempt σ α} (keeps : KeepsOnFault attempt)
    (convert : α → β) : KeepsOnFault (convert <$> attempt) := by
  intro state fault failed
  rw [run_map] at failed ⊢
  cases given : (attempt.run.run state).1 with
  | error other => exact keeps state other given
  | ok value =>
      rw [given] at failed
      cases failed

theorem keepsOnFault_attempt (operation : σ → Except Fault (α × σ)) :
    KeepsOnFault (attempt operation) := by
  intro state fault failed
  cases given : operation state with
  | error other => rw [attempt_run_error given]
  | ok result =>
      rw [attempt_run_ok given] at failed
      cases failed

theorem keepsOnFault_change (operation : σ → σ) : KeepsOnFault (change operation) :=
  fun _ _ failed => nomatch failed

theorem keepsOnFault_observe (reading : σ → Except Fault α) : KeepsOnFault (observe reading) :=
  fun _ _ _ => rfl

/-! The list of the operands. -/

def swapLast (held : List Operand) : Except Fault (Unit × List Operand) :=
  match held.reverse with
  | top :: below :: others => .ok ((), (below :: top :: others).reverse)
  | _ => .error .stackUnderflow

def listed : Storage (List Operand) where
  push operand held := if held.length < stackLimit then held ++ [operand] else held
  clear _ := []
  get position held :=
    match held[position]? with
    | some operand => .ok operand
    | none => .error (.stackAccess position)
  pop := attempt fun held =>
    match held.getLast? with
    | some top => .ok (top, held.dropLast)
    | none => .error .stackUnderflow
  takeFirst := attempt fun held =>
    match held with
    | bottom :: others => .ok (bottom, others)
    | [] => .error (.stackAccess 0)
  exchange := attempt swapLast
  duplicate := attempt fun held =>
    match held.getLast? with
    | some top => .ok ((), if held.length < stackLimit then held ++ [top] else held)
    | none => .error .stackUnderflow
  requireSize count held := if held.length < count then .error .stackUnderflow else .ok ()
  fixedSlice start count held :=
    if held.length < start + count then .error .stackUnderflow
    else .ok (((held.drop start).take count).map Operand.toFixed)
  size := List.length
  isEmpty := List.isEmpty
  hasOddSize held := held.length % 2 = 1

theorem ask_listed_keepsOnFault (request : Request) : KeepsOnFault (request.ask listed) := by
  cases request with
  | pushInteger | pushFixed | pushNumber | clear => exact (keepsOnFault_change _).map _
  | getInteger | getFixed | getNumber | requireSize | fixedSlice =>
      exact (keepsOnFault_observe _).map _
  | popInteger | popNumber | takeFirst | exchange | duplicate =>
      exact (keepsOnFault_attempt _).map _
  | size | isEmpty | hasOddSize => exact keepsOnFault_observe _

/-! The two last operands. -/

theorem exists_pair {held : List Operand} (enough : 2 ≤ held.length) :
    ∃ front below top, held = front ++ [below, top] := by
  have pair : (held.drop (held.length - 2)).length = 2 := by
    rw [List.length_drop]
    omega
  rcases List.length_eq_two.mp pair with ⟨below, top, ends⟩
  exact ⟨held.take (held.length - 2), below, top, by rw [← ends, List.take_append_drop]⟩

theorem swapLast_of_pair (front : List Operand) (below top : Operand) :
    swapLast (front ++ [below, top]) = .ok ((), front ++ [top, below]) := by
  simp [swapLast]

theorem swapLast_of_short {held : List Operand} (short : held.length < 2) :
    swapLast held = .error .stackUnderflow := by
  cases held with
  | nil => rfl
  | cons bottom others =>
      have isNil : others = [] :=
        List.length_eq_zero_iff.mp (Nat.lt_one_iff.mp (Nat.lt_of_succ_lt_succ short))
      rw [isNil]
      rfl

/-! The stack and the list of its operands. -/

def storage : Storage Stack where
  push operand stack := stack.push operand
  clear _ := empty
  get position stack := stack.get position
  pop := attempt pop
  takeFirst := attempt takeFirst
  exchange := attempt fun stack => return ((), ← stack.exchange)
  duplicate := attempt fun stack => return ((), ← stack.duplicate)
  requireSize count stack := stack.requireSize count
  fixedSlice start count stack := stack.fixedSlice start count
  size := size
  isEmpty := isEmpty
  hasOddSize := hasOddSize

theorem eq_empty_of_toList {stack : Stack} (isNil : stack.toList = []) : stack = empty :=
  ext isNil

theorem exists_below {stack : Stack} {front : List Operand} {top : Operand}
    (whole : stack.toList = front ++ [top]) :
    ∃ rest : Stack, rest.toList = front ∧ stack.pop = .ok (top, rest) := by
  have total : stack.toList.length ≤ stackLimit := stack.size_le
  rw [whole, List.length_append] at total
  rcases exists_toList (Nat.le_of_add_right_le total) with ⟨rest, equal⟩
  exact ⟨rest, equal, pop_eq_ok_iff.mpr (equal.symm ▸ whole)⟩

theorem exists_above {stack : Stack} {bottom : Operand} {others : List Operand}
    (whole : stack.toList = bottom :: others) :
    ∃ rest : Stack, rest.toList = others ∧ stack.takeFirst = .ok (bottom, rest) := by
  have total : stack.toList.length ≤ stackLimit := stack.size_le
  rw [whole, List.length_cons] at total
  rcases exists_toList (Nat.le_of_add_right_le total) with ⟨rest, equal⟩
  exact ⟨rest, equal, takeFirst_of_cons (equal.symm ▸ whole)⟩

theorem toList_push_eq_ite (stack : Stack) (operand : Operand) :
    (stack.push operand).toList =
      if stack.toList.length < stackLimit then stack.toList ++ [operand] else stack.toList := by
  split
  · next room => exact toList_push room operand
  · next full =>
      have full : ¬stack.entries.size < stackLimit := full
      rw [push, dif_neg full]

theorem exchange_of_short {stack : Stack} (short : stack.toList.length < 2) :
    stack.exchange = .error .stackUnderflow := by
  have short : stack.size < 2 := short
  rw [exchange, requireSize, if_pos short]
  rfl

theorem storage_isViewedBy : storage.IsViewedBy toList listed where
  push operand stack := (toList_push_eq_ite stack operand).symm
  clear _ := rfl
  get position stack := by
    show listed.get position stack.toList = stack.get position
    rw [get, ← Array.getElem?_toList]
    rfl
  pop := by
    apply goesAlong_attempt
    intro stack
    rcases List.eq_nil_or_concat stack.toList with isNil | ⟨front, top, whole⟩
    · rw [eq_empty_of_toList isNil]
      rfl
    · rw [List.concat_eq_append] at whole
      rcases exists_below whole with ⟨rest, rfl, popped⟩
      rw [popped, whole]
      simp only [List.getLast?_concat, List.dropLast_concat, Except.map]
  takeFirst := by
    apply goesAlong_attempt
    intro stack
    cases whole : stack.toList with
    | nil =>
        rw [eq_empty_of_toList whole]
        rfl
    | cons bottom others =>
        rcases exists_above whole with ⟨rest, rfl, taken⟩
        rw [taken]
        rfl
  exchange := by
    apply goesAlong_attempt
    intro stack
    by_cases enough : 2 ≤ stack.toList.length
    · rcases exists_pair enough with ⟨front, below, top, whole⟩
      rcases exchange_of_pair whole with ⟨result, exchanged, equal⟩
      rw [exchanged, whole, swapLast_of_pair, ← equal]
      rfl
    · have short : stack.toList.length < 2 := Nat.lt_of_not_le enough
      rw [exchange_of_short short, swapLast_of_short short]
      rfl
  duplicate := by
    apply goesAlong_attempt
    intro stack
    rcases List.eq_nil_or_concat stack.toList with isNil | ⟨front, top, whole⟩
    · rw [eq_empty_of_toList isNil]
      rfl
    · rw [List.concat_eq_append] at whole
      rcases exists_below whole with ⟨rest, -, popped⟩
      rw [duplicate_eq_ok_iff.mpr ⟨top, rest, popped, rfl⟩]
      simp only [bind, Except.bind, pure, Except.pure, Except.map, toList_push_eq_ite, whole,
        List.getLast?_concat]
  requireSize _ _ := rfl
  fixedSlice start count stack := by
    simp only [storage, listed, fixedSlice, requireSize]
    by_cases short : stack.size < start + count
    · have shortList : stack.toList.length < start + count := short
      rw [if_pos shortList, if_pos short]
      rfl
    · have notShort : ¬stack.toList.length < start + count := short
      rw [if_neg notShort, if_neg short, List.map_take, List.map_drop]
      rfl
  size _ := rfl
  isEmpty stack := Array.isEmpty_toList
  hasOddSize _ := rfl

end Stack

end Letterform.Charstring
