/-!
# Counts

The sum and the greatest of a list of counts.
-/

namespace Cascade

def sumOf : List Nat → Nat
  | [] => 0
  | n :: rest => n + sumOf rest

/-- The greatest of some counts; zero if there is none. -/
def greatestOf : List Nat → Nat
  | [] => 0
  | n :: rest => max n (greatestOf rest)

theorem sumOf_append (ms ns : List Nat) : sumOf (ms ++ ns) = sumOf ms + sumOf ns := by
  induction ms with
  | nil => simp [sumOf]
  | cons m rest ih => simp [sumOf, ih, Nat.add_assoc]

theorem sumOf_eq_zero_iff {ns : List Nat} : sumOf ns = 0 ↔ ∀ n ∈ ns, n = 0 := by
  induction ns with
  | nil => simp [sumOf]
  | cons m rest ih => rw [sumOf, Nat.add_eq_zero_iff, ih, List.forall_mem_cons]

theorem sumOf_replicate (count n : Nat) : sumOf (List.replicate count n) = count * n := by
  induction count with
  | zero => exact (Nat.zero_mul n).symm
  | succ count ih => rw [List.replicate_succ, sumOf, ih, Nat.succ_mul, Nat.add_comm]

theorem le_greatestOf {n : Nat} {ns : List Nat} (h : n ∈ ns) : n ≤ greatestOf ns := by
  induction ns with
  | nil => cases h
  | cons m rest ih =>
    rcases List.mem_cons.1 h with rfl | h
    · exact Nat.le_max_left _ _
    · exact Nat.le_trans (ih h) (Nat.le_max_right _ _)

end Cascade
