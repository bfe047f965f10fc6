import Cascade.Proofs.WellFormed

/-!
# The order of groups

Entries of which one always precedes the other have one sorted list, however
they are enumerated.  The groups of a well-formed coordinator are such entries,
because no two of them were opened at the same time.
-/

namespace Cascade

section Sorting

variable {α : Type} (precedes : α → α → Bool)

theorem pairwise_insertBy
    (htrans : ∀ {a b c}, precedes a b → precedes b c → precedes a c)
    {entry : α} {entries : List α}
    (htotal : ∀ other ∈ entries, precedes entry other ∨ precedes other entry)
    (h : entries.Pairwise (fun a b => precedes a b)) :
    (insertBy precedes entry entries).Pairwise (fun a b => precedes a b) := by
  induction entries with
  | nil => exact List.pairwise_singleton _ _
  | cons head rest ih =>
      obtain ⟨hhead, hrest⟩ := List.pairwise_cons.1 h
      simp only [insertBy]
      split
      · next hbefore =>
        refine List.pairwise_cons.2 ⟨?_, ih (fun other hmem => htotal other (.tail _ hmem)) hrest⟩
        intro other hmem
        rcases List.mem_cons.1 ((insertBy_perm _ _ _).mem_iff.1 hmem) with rfl | hmem
        · exact hbefore
        · exact hhead other hmem
      · next hnot =>
        have hfirst : precedes entry head := by
          rcases htotal head (.head _) with h | h
          · exact h
          · exact absurd h hnot
        refine List.pairwise_cons.2 ⟨?_, h⟩
        intro other hmem
        rcases List.mem_cons.1 hmem with rfl | hmem
        · exact hfirst
        · exact htrans hfirst (hhead other hmem)

theorem pairwise_sortBy
    (htrans : ∀ {a b c}, precedes a b → precedes b c → precedes a c)
    {entries : List α}
    (htotal : entries.Pairwise (fun a b => precedes a b ∨ precedes b a)) :
    (sortBy precedes entries).Pairwise (fun a b => precedes a b) := by
  induction entries with
  | nil => exact List.Pairwise.nil
  | cons head rest ih =>
      obtain ⟨hhead, hrest⟩ := List.pairwise_cons.1 htotal
      apply pairwise_insertBy precedes htrans ?_ (ih hrest)
      intro other hmem
      exact hhead other ((sortBy_perm _ _).mem_iff.1 hmem)

theorem sortBy_eq_of_perm
    (htrans : ∀ {a b c}, precedes a b → precedes b c → precedes a c)
    (hirrefl : ∀ a, ¬precedes a a)
    {entries others : List α}
    (htotal : entries.Pairwise (fun a b => precedes a b ∨ precedes b a))
    (hperm : others.Perm entries) :
    sortBy precedes others = sortBy precedes entries := by
  have htotal' : others.Pairwise (fun a b => precedes a b ∨ precedes b a) :=
    (hperm.pairwise_iff (fun h => h.symm)).2 htotal
  have hanti : ∀ a b, a ∈ sortBy precedes others → b ∈ sortBy precedes entries →
      precedes a b → precedes b a → a = b := by
    intro a b _ _ hab hba
    exact absurd (htrans hab hba) (hirrefl a)
  have hsorted : (sortBy precedes others).Perm (sortBy precedes entries) :=
    (sortBy_perm _ _).trans (hperm.trans (sortBy_perm _ _).symm)
  exact List.Perm.eq_of_pairwise hanti (pairwise_sortBy precedes htrans htotal')
    (pairwise_sortBy precedes htrans htotal) hsorted

end Sorting

namespace RecordGroup

/-- A group precedes those of greater depth, and at its own depth those that were opened later. -/
theorem precedes_iff {a b : RecordGroup} :
    a.precedes b ↔ a.depth < b.depth ∨ a.depth = b.depth ∧ a.sequence < b.sequence := by
  simp only [precedes, order, beq_iff_eq, Ordering.then_eq_lt, Int.compare_eq_lt,
    Int.compare_eq_eq, Nat.compare_eq_lt]

theorem precedes_trans {a b c : RecordGroup} (hab : a.precedes b) (hbc : b.precedes c) :
    a.precedes c := by
  rw [precedes_iff] at *
  omega

theorem not_precedes_self (a : RecordGroup) : ¬a.precedes a := by
  rw [precedes_iff]
  omega

theorem precedes_or_precedes {a b : RecordGroup} (h : a.sequence ≠ b.sequence) :
    a.precedes b ∨ b.precedes a := by
  rw [precedes_iff, precedes_iff]
  omega

end RecordGroup

namespace Coordinator.WellFormed

variable {registry : Registry} {n : Nat} {c : Coordinator}

theorem comparable (h : c.WellFormed registry n) :
    c.window.values.Pairwise (fun a b => a.precedes b ∨ b.precedes a) := by
  have hdistinct := List.pairwise_map.1 h.distinct
  exact hdistinct.imp RecordGroup.precedes_or_precedes

/-- The groups are executed in ascending order of depth and, at one depth, of age. -/
theorem pairwise_ordered (h : c.WellFormed registry n) :
    c.window.ordered.Pairwise (fun a b => a.precedes b) :=
  pairwise_sortBy RecordGroup.precedes RecordGroup.precedes_trans h.comparable

/-- In whatever order the groups are enumerated, they are executed in the same order. -/
theorem sortBy_eq_ordered
    (h : c.WellFormed registry n) {groups : List RecordGroup}
    (hperm : groups.Perm c.window.values) :
    sortBy RecordGroup.precedes groups = c.window.ordered :=
  sortBy_eq_of_perm RecordGroup.precedes RecordGroup.precedes_trans
    RecordGroup.not_precedes_self h.comparable hperm

end Coordinator.WellFormed

end Cascade
