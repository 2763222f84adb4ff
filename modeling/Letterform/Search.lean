/-!
Binary search over a range of positions that a test splits in two: it holds up to
some position and fails from there on.
-/

namespace Letterform

/-- The first position from `low` on, below `high`, at which the test fails; `high` if
there is none. -/
def partitionPoint (holds : Nat → Bool) (low high : Nat) : Nat :=
  if low < high then
    let middle := low + (high - low) / 2
    if holds middle then partitionPoint holds (middle + 1) high
    else partitionPoint holds low middle
  else low
termination_by high - low

theorem partitionPoint_eq (holds : Nat → Bool) (low split high : Nat)
    (lowSplit : low ≤ split) (splitHigh : split ≤ high)
    (before : ∀ position, low ≤ position → position < split → holds position = true)
    (after : ∀ position, split ≤ position → position < high → holds position = false) :
    partitionPoint holds low high = split := by
  fun_induction partitionPoint holds low high with
  | case1 low high lower middle holdsMiddle induction =>
      have beyond : middle < split := by
        refine Nat.lt_of_not_le fun reached => ?_
        have := after middle reached (by omega)
        simp_all
      exact induction beyond splitHigh (fun position _ => before position (by omega)) after
  | case2 low high lower middle failsMiddle induction =>
      have reached : split ≤ middle := by
        refine Nat.le_of_not_lt fun beyond => ?_
        exact failsMiddle (before middle (by omega) beyond)
      exact induction lowSplit reached before
        (fun position bound _ => after position bound (by omega))
  | case3 low high empty => omega

end Letterform
