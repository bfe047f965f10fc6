import Mathlib.Data.List.MinMax
import Mathlib.Data.List.Perm.Basic
import Cascade.Proofs.Tenure

/-!
# The marks of a coordinator

Two numbers of a coordinator summarise its groups and are kept apart from them:
the size of the largest group and the depth of the deepest one.  Each is raised
when a write is buffered, and set back when the groups that it stands for are
drained or forgotten, so at any time it is what it stands for.
-/

namespace Cascade

section Greatest

variable {α : Type} [LinearOrder α]

/-- Where one of some values grows, the greatest of them grows with it. -/
theorem foldr_max_of_le {x y : α} (hle : x ≤ y) (least : α) (front back : List α) :
    (front ++ y :: back).foldr max least = max ((front ++ x :: back).foldr max least) y := by
  induction front with
  | nil =>
      simp only [List.nil_append, List.foldr_cons]
      rw [max_right_comm, max_eq_right hle]
  | cons head rest ih =>
      simp only [List.cons_append, List.foldr_cons, ih, max_assoc]

end Greatest

theorem greatestOf_eq_foldr (counts : List Nat) : greatestOf counts = counts.foldr max 0 := by
  induction counts with
  | nil => rfl
  | cons count rest ih => rw [greatestOf, ih, List.foldr_cons]

theorem greatestOf_lt {bound : Nat} (hpos : 0 < bound) {counts : List Nat}
    (h : ∀ count ∈ counts, count < bound) : greatestOf counts < bound := by
  induction counts with
  | nil => exact hpos
  | cons count rest ih =>
      exact Nat.max_lt.2 ⟨h count List.mem_cons_self,
        ih (fun other hmem => h other (List.mem_cons_of_mem _ hmem))⟩

theorem RecordGroup.size_append (id : RequestId) (record : Record) (group : RecordGroup) :
    (group.append id record).size = group.size + 1 := by
  simp [size, append]

namespace Window

/-- The size of the largest group, and zero if there is none. -/
def largest (window : Window) : Nat :=
  greatestOf (window.values.map RecordGroup.size)

/-- The depth of the deepest group, and zero if there is none below. -/
def deepest (window : Window) : Int :=
  (window.values.map RecordGroup.depth).foldr max 0

variable {window : Window} {root : RootType}

theorem depth_le_deepest {group : RecordGroup} (hmem : group ∈ window.values) :
    group.depth ≤ window.deepest :=
  List.le_max_of_le' 0 (List.mem_map_of_mem hmem) le_rfl

theorem marks_insert_append
    {group : RecordGroup} (hget : window.get? root = some group) (id : RequestId)
    (record : Record) :
    largest (window.insert root (group.append id record)) =
        max window.largest (group.append id record).size ∧
      deepest (window.insert root (group.append id record)) = window.deepest := by
  obtain ⟨front, back, hvalues, hinsert⟩ := Dictionary.values_insert_of_get?_eq_some hget
  have hsize : group.size ≤ (group.append id record).size := by
    rw [RecordGroup.size_append]
    exact Nat.le_succ _
  constructor
  · simp only [largest, greatestOf_eq_foldr, hvalues, hinsert, List.map_append, List.map_cons]
    exact foldr_max_of_le hsize _ _ _
  · simp only [deepest, hvalues, hinsert, List.map_append, List.map_cons]
    rfl

/-- A group that enters raises the size of the largest group and the depth of the deepest one. -/
theorem marks_insert_of_get?_eq_none (hget : window.get? root = none) (group : RecordGroup) :
    largest (window.insert root group) = max window.largest group.size ∧
      deepest (window.insert root group) = max window.deepest group.depth := by
  have hvalues := Dictionary.values_insert_perm_of_get?_eq_none hget group
  constructor
  · simp only [largest, greatestOf_eq_foldr]
    rw [(hvalues.map RecordGroup.size).foldr_eq 0, max_comm]
    rfl
  · rw [deepest, (hvalues.map RecordGroup.depth).foldr_eq 0, max_comm]
    rfl

theorem largest_drained (window : Window) : window.drained.largest = 0 := by
  have hzero : ∀ groups : List RecordGroup,
      greatestOf ((groups.map RecordGroup.drained).map RecordGroup.size) = 0 := by
    intro groups
    induction groups with
    | nil => rfl
    | cons group rest ih =>
        rw [List.map_cons, List.map_cons, greatestOf, ih]
        rfl
  rw [largest, drained, Dictionary.values_mapValues]
  exact hzero _

theorem deepest_drained (window : Window) : window.drained.deepest = window.deepest := by
  rw [deepest, drained, Dictionary.values_mapValues, List.map_map]
  rfl

end Window

namespace Coordinator

variable {σ : Type}

/-- The marks of a coordinator are those of its groups. -/
structure Marks (c : Coordinator) : Prop where
  highWater : c.highWater = c.window.largest
  maxDepth : c.maxDepth = c.window.deepest

namespace Marks

variable {c : Coordinator}

theorem settled (h : c.Marks) (reset : Bool) (totals : Totals) :
    (c.settled reset totals).Marks := by
  cases reset with
  | true => exact ⟨rfl, rfl⟩
  | false =>
      constructor
      · exact (Window.largest_drained c.window).symm
      · exact h.maxDepth.trans (Window.deepest_drained c.window).symm

theorem flushWith [Store σ] (h : c.Marks) (ctx : Context) (reset : Bool) (b : Backing σ) :
    (c.flushWith ctx reset b).2.1.Marks := by
  rw [coordinator_flushWith]
  split
  · exact h.settled reset _
  · exact ⟨rfl, rfl⟩

theorem withRecord_member
    {record : Record} {group : RecordGroup} (h : c.Marks)
    (hget : c.window.get? record.root = some group) : (c.withRecord record group).Marks := by
  obtain ⟨hlargest, hdeepest⟩ := Window.marks_insert_append hget c.latest record
  constructor
  · exact (congrArg (max · _) h.highWater).trans hlargest.symm
  · exact h.maxDepth.trans hdeepest.symm

theorem withRecord_entrant
    {record : Record} (h : c.Marks) (hget : c.window.get? record.root = none) (depth : Int) :
    ((c.withOpened depth).withRecord record (.new record.root depth c.opened)).Marks := by
  obtain ⟨hlargest, hdeepest⟩ := Window.marks_insert_of_get?_eq_none hget
    ((RecordGroup.new record.root depth c.opened).append c.latest record)
  constructor
  · exact (congrArg (max · _) h.highWater).trans hlargest.symm
  · exact (congrArg (max · _) h.maxDepth).trans hdeepest.symm

end Marks

theorem Move.marks [Store σ]
    {ctx : Context} {stage : Stage σ} {m next : Moment σ} (hmove : Move ctx stage m next)
    (h : m.coordinator.Marks) : next.coordinator.Marks := by
  cases hmove with
  | flush given reset c b => exact h.flushWith ctx reset b
  | member record group c b _ hget => exact h.withRecord_member hget
  | entrant record depth c b _ hget _ => exact h.withRecord_entrant hget depth
  | clear given c b => exact ⟨rfl, rfl⟩
  | number | statement | force | execute | adjust => exact ⟨h.highWater, h.maxDepth⟩

theorem Reachable.marks {ctx : Context} {c : Coordinator} (h : Reachable ctx c) : c.Marks := by
  induction h with
  | new policy => exact ⟨rfl, rfl⟩
  | step operation b _ ih =>
      obtain ⟨last, hpath⟩ := path_stages ctx false operation _ b
      exact (hpath.keeps (P := fun m => m.coordinator.Marks) Move.marks ih).1

end Coordinator

end Cascade
