import Patchbay.Document
import Mathlib.Data.List.Nodup
import Mathlib.Data.String.Basic

/-!
# Ids that are shared

The ids that occur more than once are listed in strictly increasing order (`Document.sharedIds`),
so none is listed exactly if all are distinct.
-/

namespace Patchbay

/-! ## Taking out repetitions -/

theorem mem_eraseReps_loop {α : Type} [BEq α] [LawfulBEq α] (last x : α) (rest read : List α) :
    x ∈ List.eraseRepsBy.loop (fun a b => a == b) last rest read ↔
      x ∈ read ∨ x = last ∨ x ∈ rest := by
  induction rest generalizing last read with
  | nil => simp [List.eraseRepsBy.loop, or_comm]
  | cons next rest ih =>
    unfold List.eraseRepsBy.loop
    cases same : last == next with
    | true =>
      rw [eq_of_beq same]
      simp only [ih, List.mem_cons]
      tauto
    | false =>
      simp only [ih, List.mem_cons]
      tauto

theorem mem_eraseReps {α : Type} [BEq α] [LawfulBEq α] (x : α) (xs : List α) :
    x ∈ xs.eraseReps ↔ x ∈ xs := by
  cases xs with
  | nil => rfl
  | cons first rest =>
    rw [List.mem_cons]
    exact (mem_eraseReps_loop first x rest []).trans (or_iff_right List.not_mem_nil)

/-- What has been read stands in reverse, so it decreases down to the element that comes next. -/
theorem pairwise_eraseReps_loop {α : Type} [LinearOrder α] {last : α} {rest read : List α}
    (sorted : (last :: rest).Pairwise (· ≤ ·)) (strict : (last :: read).Pairwise (· > ·)) :
    (List.eraseRepsBy.loop (fun a b => a == b) last rest read).Pairwise (· < ·) := by
  induction rest generalizing last read with
  | nil =>
    rw [List.eraseRepsBy.loop, List.pairwise_reverse]
    exact strict
  | cons next rest ih =>
    have later := List.pairwise_cons.mp sorted
    unfold List.eraseRepsBy.loop
    cases same : last == next with
    | true =>
      have eq := eq_of_beq same
      subst eq
      exact ih later.2 strict
    | false =>
      have less : last < next :=
        lt_of_le_of_ne (later.1 next List.mem_cons_self) (ne_of_beq_false same)
      refine ih later.2 (List.pairwise_cons.mpr ⟨fun x member => ?_, strict⟩)
      rcases List.mem_cons.mp member with rfl | member
      · exact less
      · exact lt_trans ((List.pairwise_cons.mp strict).1 x member) less

theorem pairwise_eraseReps {α : Type} [LinearOrder α] {xs : List α}
    (sorted : xs.Pairwise (· ≤ ·)) : xs.eraseReps.Pairwise (· < ·) := by
  cases xs with
  | nil => exact .nil
  | cons first rest => exact pairwise_eraseReps_loop sorted (List.pairwise_singleton _ _)

namespace Document

/-! ## The ids of a document -/

theorem mem_sharedIds_iff (ids : List String) (id : String) :
    id ∈ sharedIds ids ↔ 1 < ids.count id := by
  unfold sharedIds
  rw [mem_eraseReps, List.mem_mergeSort, List.mem_filter, decide_eq_true_eq]
  exact and_iff_right_of_imp fun often => List.count_pos_iff.mp (by omega)

theorem sharedIds_increasing (ids : List String) : (sharedIds ids).Pairwise (· < ·) := by
  have transitive : ∀ a b c : String,
      decide (a ≤ b) = true → decide (b ≤ c) = true → decide (a ≤ c) = true := by
    intro a b c first second
    simp only [decide_eq_true_eq] at *
    exact le_trans first second
  have total : ∀ a b : String, (decide (a ≤ b) || decide (b ≤ a)) = true := by
    intro a b
    simp only [Bool.or_eq_true, decide_eq_true_eq]
    exact le_total a b
  have sorted := List.pairwise_mergeSort transitive total (ids.filter fun id => 1 < ids.count id)
  exact pairwise_eraseReps (sorted.imp of_decide_eq_true)

/-- No id is shared exactly if all are distinct. -/
theorem sharedIds_isEmpty_iff (ids : List String) :
    (sharedIds ids).isEmpty = true ↔ ids.Nodup := by
  rw [List.isEmpty_iff, List.eq_nil_iff_forall_not_mem, List.nodup_iff_count_le_one]
  simp only [mem_sharedIds_iff, not_lt]

end Document
end Patchbay
