import Letterform.Proofs.Cff.Index
import Letterform.Proofs.Charstring.Contours
import Letterform.Proofs.Charstring.Shadow

/-!
Bytes behind the end. A charstring or subroutine that runs off its end does what a return there
does, so a return may be written behind any of them. The run is the same step by step: where
one run finds no bytes left in a frame, the other one takes the return. A run that `endchar`
ends never comes to the end of its charstring, and any bytes may stand there.
-/

namespace Letterform

namespace Charstring

open Cff (Fault Index)

/-- Bytes behind which a frame is left: none, or those of a return. -/
def EndsFrame (tail : Bytes) : Prop := tail = [] ∨ tail = [returnOpcode]

end Charstring

namespace Cff.Index

/-- The second INDEX has as many objects. Those of the first one are among them, each as it was
or with a return behind it. -/
structure AddsReturns (first second : Index) : Prop where
  size : second.size = first.size
  get : ∀ position object, first.get position = .ok object →
    second.get position = .ok object ∨
      second.get position = .ok (object ++ [Charstring.returnOpcode])

theorem AddsReturns.exists_get {first second : Index} (adds : first.AddsReturns second)
    {position : Nat} {object : Bytes} (read : first.get position = .ok object) :
    ∃ tail, Charstring.EndsFrame tail ∧ second.get position = .ok (object ++ tail) := by
  rcases adds.get position object read with same | returning
  · exact ⟨[], .inl rfl, by rw [List.append_nil, same]⟩
  · exact ⟨_, .inr rfl, returning⟩

theorem addsReturns_of_holds {first second : Index} {objects others : List Bytes}
    (holds : first.Holds objects) (otherHolds : second.Holds others)
    (adds : List.Forall₂ (fun object other =>
      other = object ∨ other = object ++ [Charstring.returnOpcode]) objects others) :
    first.AddsReturns second := by
  refine ⟨by rw [holds.size_eq, otherHolds.size_eq, adds.length_eq], ?get⟩
  case get =>
    intro position object read
    have found : objects[position]? = some object := by
      rw [← holds.get_eq, read]
      rfl
    rcases List.getElem?_eq_some_iff.mp found with ⟨within, rfl⟩
    have otherWithin : position < others.length := adds.length_eq ▸ within
    have otherRead := otherHolds.get_eq_ok (List.getElem?_eq_getElem otherWithin)
    exact (adds.get within otherWithin).imp (fun same => otherRead.trans (congrArg _ same))
      fun returning => otherRead.trans (congrArg _ returning)

end Cff.Index

namespace Charstring

open Cff (Fault Index)

namespace Subroutines

structure AddsReturns (first second : Subroutines) : Prop where
  charstringType : second.charstringType = first.charstringType
  globals : first.globals.AddsReturns second.globals
  locals : Option.Rel Index.AddsReturns first.locals second.locals

variable {subroutines others : Subroutines}

theorem AddsReturns.exists_index (adds : subroutines.AddsReturns others) {scope : SubroutineScope}
    {index : Index} (found : subroutines.index scope = .ok index) :
    ∃ other, others.index scope = .ok other ∧ index.AddsReturns other := by
  cases scope with
  | globals =>
      cases found
      exact ⟨others.globals, rfl, adds.globals⟩
  | locals =>
      have related := adds.locals
      simp only [Subroutines.index] at found ⊢
      generalize subroutines.locals = first, others.locals = second at related found ⊢
      cases related with
      | none => cases found
      | some related =>
          cases found
          exact ⟨_, rfl, related⟩

theorem exists_body {first second : Index} (adds : first.AddsReturns second) {number : Int32}
    {object : Bytes} (read : body first number = .ok object) :
    ∃ tail, EndsFrame tail ∧ body second number = .ok (object ++ tail) := by
  simp only [body, adds.size] at read ⊢
  split at read
  · cases read
  · next within =>
      rw [if_neg within]
      exact adds.exists_get read

theorem AddsReturns.exists_callee (adds : subroutines.AddsReturns others) {scope : SubroutineScope}
    {stack rest : Stack} {object : Bytes}
    (resolved : subroutines.callee scope stack = .ok (object, rest)) :
    ∃ tail, EndsFrame tail ∧ others.callee scope stack = .ok (object ++ tail, rest) := by
  rcases exists_ok_of_bind resolved with ⟨index, found, resolved⟩
  rcases exists_ok_of_bind resolved with ⟨⟨operand, below⟩, popped, resolved⟩
  rcases exists_ok_of_bind resolved with ⟨body, read, resolved⟩
  cases resolved
  rcases adds.exists_index found with ⟨other, otherFound, addsObjects⟩
  have sameNumber : others.biased other operand.toInt32 =
      subroutines.biased index operand.toInt32 := by
    rw [biased, biased, addsObjects.size, adds.charstringType]
  rcases exists_body addsObjects read with ⟨tail, ends, otherRead⟩
  refine ⟨tail, ends, ?_⟩
  simp only [callee, otherFound, popped, sameNumber, otherRead, bind, Except.bind, pure,
    Except.pure]

end Subroutines

/-! Two runs frame by frame. -/

/-- The open frames of two runs, the innermost first. The second run has the same bytes ahead as
the first one, and others behind them: in the outermost frame the tail, in any other frame
nothing or a return. -/
inductive Prolongs (tail : Bytes) : List Cursor → List Cursor → Prop
  | outermost {first second : Cursor} (beside : first.Beside [] tail second) :
      Prolongs tail [first] [second]
  | inner {first second : Cursor} {firsts seconds : List Cursor} {behind : Bytes}
      (ends : EndsFrame behind) (beside : first.Beside [] behind second)
      (prolongs : Prolongs tail firsts seconds) :
      Prolongs tail (first :: firsts) (second :: seconds)

/-- Where the first run has no bytes ahead, the second one has those behind its end. -/
theorem exists_position_of_exhausted {behind : Bytes} {first second : Cursor}
    (beside : first.Beside [] behind second) (exhausted : first.rest = []) :
    ∃ position, second = { rest := behind, position } := by
  rcases beside with ⟨ahead, position, otherPosition, rfl, rfl⟩
  have nothing : ahead = [] := (List.append_nil ahead).symm.trans exhausted
  rw [nothing]
  exact ⟨otherPosition, rfl⟩

namespace Prolongs

variable {tail : Bytes} {cursor next caller second : Cursor} {callers seconds : List Cursor}

theorem nonempty {firsts : List Cursor} (prolongs : Prolongs tail firsts seconds) :
    ∃ second others, seconds = second :: others := by
  cases prolongs with
  | outermost => exact ⟨_, _, rfl⟩
  | inner => exact ⟨_, _, rfl⟩

theorem length_eq {firsts : List Cursor} (prolongs : Prolongs tail firsts seconds) :
    seconds.length = firsts.length := by
  induction prolongs with
  | outermost => rfl
  | inner _ _ _ induction => exact congrArg (· + 1) induction

theorem run {ε α : Type} {decoder : Decoder ε α} (exact : decoder.IsExact) {value : α}
    (prolongs : Prolongs tail (cursor :: callers) (second :: seconds))
    (equal : decoder.run cursor = (.ok value, next)) :
    ∃ after, decoder.run second = (.ok value, after) ∧
      Prolongs tail (next :: callers) (after :: seconds) := by
  cases prolongs with
  | outermost beside =>
      rcases beside.run exact equal (Nat.zero_le _) with ⟨after, same, beside⟩
      exact ⟨after, same, .outermost beside⟩
  | inner ends beside prolongs =>
      rcases beside.run exact equal (Nat.zero_le _) with ⟨after, same, beside⟩
      exact ⟨after, same, .inner ends beside prolongs⟩

theorem pop (prolongs : Prolongs tail (cursor :: caller :: callers) (second :: seconds)) :
    (∃ behind, EndsFrame behind ∧ cursor.Beside [] behind second) ∧
      ∃ other others, seconds = other :: others ∧
        Prolongs tail (caller :: callers) (other :: others) := by
  cases prolongs with
  | inner ends beside prolongs =>
      rcases prolongs.nonempty with ⟨other, others, rfl⟩
      exact ⟨⟨_, ends, beside⟩, other, others, rfl, prolongs⟩

end Prolongs

structure Continues (tail : Bytes) (first second : Configuration) : Prop where
  frames : Prolongs tail (first.cursor :: first.callers) (second.cursor :: second.callers)
  machine : second.machine = first.machine

namespace Continues

variable {subroutines others : Subroutines} {tail : Bytes} {first next last second : Configuration}

theorem transition (adds : subroutines.AddsReturns others) (continues : Continues tail first second)
    (transition : Transition subroutines first next) :
    ∃ after, Transition others second after ∧ Continues tail next after := by
  rcases second with ⟨secondCursor, secondCallers, secondMachine⟩
  rcases continues with ⟨frames, rfl⟩
  have exact := Token.decoder_isRegular.exact
  cases transition with
  | exhaust exhausted =>
      rcases frames.pop with ⟨⟨behind, ends, beside⟩, caller, callers, rfl, outer⟩
      rcases exists_position_of_exhausted beside exhausted with ⟨position, rfl⟩
      rcases ends with rfl | rfl
      · exact ⟨_, .exhaust rfl, outer, rfl⟩
      · exact ⟨_, .return (Token.decoder_reads_return [] position), outer, rfl⟩
  | operand token =>
      rcases frames.run exact token with ⟨after, read, frames⟩
      exact ⟨_, .operand read, frames, rfl⟩
  | act token acts performed =>
      rcases frames.run exact token with ⟨after, read, frames⟩
      exact ⟨_, .act read acts performed, frames, rfl⟩
  | mask token performed taken emitted =>
      rcases frames.run exact token with ⟨middle, read, frames⟩
      rcases frames.run (.takeBytes _) taken with ⟨after, take, frames⟩
      exact ⟨_, .mask read performed take emitted, frames, rfl⟩
  | @call cursor middle callers machine scope body stack token resolved shallow =>
      rcases frames.run exact token with ⟨after, read, frames⟩
      rcases adds.exists_callee resolved with ⟨behind, ends, otherResolved⟩
      have depth := frames.length_eq
      simp only [List.length_cons, Nat.add_right_cancel_iff] at depth
      refine ⟨_, .call read otherResolved (depth ▸ shallow), .inner ends ?_ frames, rfl⟩
      exact ⟨body, 0, 0, by rw [List.append_nil]; rfl, rfl⟩
  | «return» token =>
      rcases frames.run exact token with ⟨after, read, inside⟩
      rcases frames.pop with ⟨-, caller, callers, rfl, outer⟩
      exact ⟨_, .return read, outer, rfl⟩

theorem advance? (adds : subroutines.AddsReturns others) {count : Nat}
    (continues : Continues tail first second)
    (reached : first.advance? subroutines count = some last) :
    ∃ after, second.advance? others count = some after ∧ Continues tail last after := by
  induction count generalizing last with
  | zero =>
      cases reached
      exact ⟨second, rfl, continues⟩
  | succ count induction =>
      rcases Configuration.advance?_succ_last.mp reached with ⟨before, reachedBefore, transition⟩
      rcases induction reachedBefore with ⟨otherBefore, otherReached, continuesBefore⟩
      rcases continuesBefore.transition adds transition with ⟨after, otherTransition, continues⟩
      exact ⟨after, Configuration.advance?_succ_last.mpr ⟨_, otherReached, otherTransition⟩,
        continues⟩

/-- Both runs end in the same way. Behind the end of the charstring there may be a return, and
behind `endchar` anything. -/
theorem conclusion {ending : Ending} {machine : Machine} (continues : Continues tail last second)
    (ends : EndsFrame tail ∨ ending = .endCharacter)
    (conclusion : Conclusion subroutines last (.ok ending, machine)) :
    Conclusion others second (.ok ending, machine) := by
  rcases second with ⟨secondCursor, secondCallers, secondMachine⟩
  rcases continues with ⟨frames, rfl⟩
  have exact := Token.decoder_isRegular.exact
  cases conclusion with
  | exhaust exhausted =>
      cases frames with
      | outermost beside =>
          rcases exists_position_of_exhausted beside exhausted with ⟨position, rfl⟩
          rcases ends with (rfl | rfl) | impossible
          · exact .exhaust rfl
          · exact .return (Token.decoder_reads_return [] position)
          · cases impossible
      | inner _ _ outside => cases outside
  | «return» token =>
      rcases frames.run exact token with ⟨after, read, inside⟩
      cases frames with
      | outermost beside => exact .return read
      | inner _ _ outside => cases outside
  | endCharacter token performed =>
      rcases frames.run exact token with ⟨after, read, frames⟩
      exact .endCharacter read performed

theorem ofCharstring (charstring tail : Bytes) :
    Continues tail (.ofCharstring charstring) (.ofCharstring (charstring ++ tail)) :=
  ⟨.outermost ⟨charstring, 0, 0, by rw [List.append_nil]; rfl, rfl⟩, rfl⟩

end Continues

open Charstring.Configuration

/-- A run that succeeds gives the same with bytes behind its end. -/
theorem evaluate_append {subroutines others : Subroutines} (adds : subroutines.AddsReturns others)
    {charstring tail : Bytes} {ending : Ending} {machine : Machine}
    (succeeds : (ofCharstring charstring).run subroutines = (.ok ending, machine))
    (ends : EndsFrame tail ∨ ending = .endCharacter) :
    evaluate others (charstring ++ tail) = evaluate subroutines charstring := by
  rcases exists_conclusion subroutines (ofCharstring charstring) with
    ⟨count, last, reached, conclusion⟩
  rw [succeeds] at conclusion
  rcases (Continues.ofCharstring charstring tail).advance? adds reached with
    ⟨otherLast, otherReached, continues⟩
  have otherConclusion : Conclusion others otherLast (.ok ending, machine) :=
    continues.conclusion ends conclusion
  rw [evaluate_eq_ofResult, evaluate_eq_ofResult, succeeds, run_of_advance? otherReached,
    run_of_conclusion otherConclusion]

/-- Returns change nothing behind a charstring and behind any of its subroutines, as long as the
evaluation succeeds. Nor do any bytes at all behind a charstring that comes to an `endchar`,
there or in a subroutine. -/
theorem evaluate_addsReturns {subroutines others : Subroutines}
    (adds : subroutines.AddsReturns others) {charstring : Bytes} {summary : Summary}
    (succeeds : (evaluate subroutines charstring).summary = .ok summary) :
    evaluate others charstring = evaluate subroutines charstring ∧
    evaluate others (charstring ++ [returnOpcode]) = evaluate subroutines charstring ∧
    (ReachesEndCharacter subroutines charstring → ∀ tail,
      evaluate others (charstring ++ tail) = evaluate subroutines charstring) := by
  rcases result : (ofCharstring charstring).run subroutines with ⟨fault | ending, machine⟩
  · rw [evaluate_eq_ofResult, result] at succeeds
    cases succeeds
  · refine ⟨?_, ?_, ?_⟩
    · have nothing := evaluate_append adds result (.inl (.inl rfl))
      rwa [List.append_nil] at nothing
    · exact evaluate_append adds result (.inl (.inr rfl))
    · intro reaches tail
      rw [reachesEndCharacter_iff, result] at reaches
      exact evaluate_append adds result (.inr (Except.ok.inj reaches))

/-- Two subroutines. The first one draws a line and calls the second one as its last operator. -/
def endingCalls : Subroutines where
  globals := Index.stored 1 [[159, 6, 33, 29], [14]] []

def returningCalls : Subroutines where
  globals := Index.stored 1 [[159, 6, 33, 29, 11], [14]] []

theorem endingCalls_addsReturns : endingCalls.AddsReturns returningCalls where
  charstringType := rfl
  globals := by
    have fits : Index.Fits 1 [[159, 6, 33, 29], [14]] :=
      ⟨by decide, by decide, by decide, by decide⟩
    have returningFits : Index.Fits 1 [[159, 6, 33, 29, 11], [14]] :=
      ⟨by decide, by decide, by decide, by decide⟩
    exact Index.addsReturns_of_holds (Index.stored_holds fits [])
      (Index.stored_holds returningFits []) (.cons (.inr rfl) (.cons (.inl rfl) .nil))
  locals := .none

/-- A run that comes to its `endchar` by two calls without a byte behind them. -/
theorem evaluate_addsReturns_calls :
    let evaluation := evaluate endingCalls [149, 22, 32, 29]
    endingCalls.AddsReturns returningCalls ∧ evaluation.summary = .ok {} ∧
      evaluate returningCalls [149, 22, 32, 29, 11] = evaluation ∧
      evaluate returningCalls [149, 22, 32, 29, 255, 0] = evaluation := by
  have reached : (ofCharstring [149, 22, 32, 29]).advance? endingCalls 8 = some _ := rfl
  have ends := (run_of_advance? reached).trans
    (run_of_conclusion (.endCharacter rfl (Action.endCharacter_run _)))
  have succeeds : (evaluate endingCalls [149, 22, 32, 29]).summary = .ok {} := by
    rw [evaluate_eq_ofResult, ends]
    rfl
  have unchanged := evaluate_addsReturns endingCalls_addsReturns succeeds
  exact ⟨endingCalls_addsReturns, succeeds, unchanged.2.1,
    unchanged.2.2 ⟨8, _, _, rfl, rfl⟩ [255, 0]⟩

end Charstring

end Letterform
