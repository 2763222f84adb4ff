import Letterform.Search
import Mathlib.Data.List.Chain
import Mathlib.Data.List.Perm.Subperm
import Mathlib.Data.List.Range

/-!
Lists in ascending order. Their length is bounded by the numbers that there are, and a test for
small members holds up to some member and fails from there on. So a search by halves finds the
same member as a search from the front.
-/

namespace Letterform

theorem length_le_of_ascending {α : Type} {number : α → Nat} {values : List α} {bound : Nat}
    (ascending : values.Pairwise fun value later => number value < number later)
    (below : ∀ value ∈ values, number value < bound) : values.length ≤ bound := by
  have distinct : (values.map number).Nodup :=
    (List.pairwise_map.mpr ascending).imp Nat.ne_of_lt
  have inRange : values.map number ⊆ List.range bound := by
    intro found member
    rcases List.mem_map.mp member with ⟨value, inValues, rfl⟩
    exact List.mem_range.mpr (below value inValues)
  have count := (distinct.subperm inRange).length_le
  rwa [List.length_map, List.length_range] at count

theorem pairwise_of_separate {α β : Type} [LE β] [LT β] [Std.IsPreorder β] [Std.LawfulOrderLT β]
    {start stop : α → β} {values : List α} (ordered : ∀ value ∈ values, start value ≤ stop value)
    (separate : values.IsChain fun value next => stop value < start next) :
    values.Pairwise fun value later => stop value < start later := by
  induction values with
  | nil => exact .nil
  | cons first rest induction =>
      cases rest with
      | nil => exact List.pairwise_singleton _ _
      | cons second rest =>
          rw [List.forall_mem_cons] at ordered
          rw [List.isChain_cons_cons] at separate
          have others := induction ordered.2 separate.2
          refine .cons ?_ others
          intro other member
          rcases List.mem_cons.mp member with same | later
          · rw [same]
            exact separate.1
          · have before := (List.pairwise_cons.mp others).1 other later
            have width := ordered.2 second List.mem_cons_self
            exact Std.lt_trans separate.1 (Std.lt_of_le_of_lt width before)

theorem find?_range_getElem? {α : Type} (values : List α) (passes : α → Bool) :
    ((List.range values.length).find? fun index => values[index]?.any passes) =
      values.findIdx? passes := by
  induction values with
  | nil => rfl
  | cons value values induction =>
      rw [List.length_cons, List.range_succ_eq_map, List.find?_cons, List.findIdx?_cons,
        List.find?_map]
      have later : ((fun index => (value :: values)[index]?.any passes) ∘ Nat.succ) =
          fun index => values[index]?.any passes := by
        funext index
        rw [Function.comp_apply, List.getElem?_cons_succ]
      rw [later, induction, List.getElem?_cons_zero, Option.any_some]
      cases passes value <;> rfl

/-! Tests that hold up to some member. -/

section Parted

variable {α : Type} {values : List α} {passes : α → Bool}
  (parted : values.Pairwise fun value other => passes other → passes value)

include parted

theorem partitionPoint_eq_findIdx :
    partitionPoint (fun index => values[index]?.any passes) 0 values.length =
      values.findIdx fun value => !passes value := by
  apply partitionPoint_eq _ 0 _ _ (Nat.zero_le _) List.findIdx_le_length
  · intro index _ early
    have within := Nat.lt_of_lt_of_le early List.findIdx_le_length
    have passed := List.not_of_lt_findIdx early
    rw [List.getElem?_eq_getElem within, Option.any_some]
    simpa using passed
  · intro index late within
    generalize place : values.findIdx (fun value => !passes value) = first at late
    have before : first < values.length := Nat.lt_of_le_of_lt late within
    have failed : passes values[first] = false := by
      subst place
      simpa using @List.findIdx_getElem _ (fun value => !passes value) values before
    rw [List.getElem?_eq_getElem within, Option.any_some, Bool.eq_false_iff]
    intro passed
    rcases Nat.eq_or_lt_of_le late with same | later
    · subst same
      exact Bool.false_ne_true (failed.symm.trans passed)
    · have passedBefore := List.pairwise_iff_getElem.mp parted _ _ before within later passed
      exact Bool.false_ne_true (failed.symm.trans passedBefore)

theorem filter_eq_takeWhile : values.filter passes = values.takeWhile passes := by
  induction values with
  | nil => rfl
  | cons value values induction =>
      rcases List.pairwise_cons.mp parted with ⟨first, others⟩
      cases passed : passes value with
      | true =>
          rw [List.filter_cons_of_pos passed, List.takeWhile_cons_of_pos passed, induction others]
      | false =>
          have failed : ∀ other ∈ values, ¬passes other := by
            intro other member passedLater
            exact Bool.false_ne_true (passed.symm.trans (first other member passedLater))
          rw [List.filter_cons_of_neg (by simp [passed]),
            List.takeWhile_cons_of_neg (by simp [passed]), List.filter_eq_nil_iff.mpr failed]

/-- The last member that passes is the one in front of the first that fails. -/
theorem getLast?_filter_eq_getElem? :
    (values.filter passes).getLast? =
      let failing := values.findIdx fun value => !passes value
      if failing = 0 then none else values[failing - 1]? := by
  rw [filter_eq_takeWhile parted, List.takeWhile_eq_take_findIdx_not]
  generalize place : values.findIdx (fun value => !passes value) = failing
  have bound : failing ≤ values.length := place ▸ List.findIdx_le_length
  rw [List.getLast?_eq_getElem?, List.length_take_of_le bound]
  cases failing with
  | zero => rfl
  | succ before => simp

end Parted

end Letterform
