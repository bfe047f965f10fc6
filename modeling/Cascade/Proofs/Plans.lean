import Cascade.Proofs.Parcels

/-!
# What a plan delivers

The writes of a group are cut into calls, and nothing is lost or moved by that:
as long as every root type is known, the calls of a plan hold the parcels of the
writes in the order in which the writes came.
-/

namespace Cascade

namespace Registry

/-- The parcel of a buffered record write, if its root type is known. -/
def parcel? (registry : Registry) (write : RequestId × Record) : Option Parcel :=
  (registry.get? write.2.root).map (fun d => (d.bind write.2).parcel (some write.1))

theorem exists_get?_of_contains
    {registry : Registry} {root : RootType} (h : registry.contains root) :
    ∃ d, registry.get? root = some d :=
  Option.isSome_iff_exists.1 h

/-- A write of a known root type binds to a statement, whose parcel it leads to. -/
theorem bind_of_contains
    {registry : Registry} {write : RequestId × Record} (h : registry.contains write.2.root) :
    ∃ statement, registry.bind write.2 = .ok statement ∧
      registry.parcel? write = some (statement.parcel (some write.1)) := by
  obtain ⟨d, hd⟩ := exists_get?_of_contains h
  exact ⟨d.bind write.2, by simp [bind, hd], by simp [parcel?, hd]⟩

end Registry

/-- The parcels of a group of records, in the order in which the writes came. -/
def RecordGroup.parcels (registry : Registry) (group : RecordGroup) : List Parcel :=
  group.pending.filterMap registry.parcel?

namespace RecordGroup

/-- The statements of the writes of a group, in the order in which the writes came. -/
def bind (registry : Registry) (group : RecordGroup) : Except WriteError (List Statement) :=
  group.pending.mapM (fun write => registry.bind write.2)

/-- A group of known root types binds to statements, whose normal forms its parcels carry. -/
theorem exists_bind
    {registry : Registry} {group : RecordGroup}
    (hknown : ∀ write ∈ group.pending, registry.contains write.2.root) :
    ∃ statements, group.bind registry = .ok statements ∧
      (group.parcels registry).map Parcel.statement = statements.map Statement.normal := by
  unfold bind parcels
  obtain ⟨_, _, _, pending⟩ := group
  simp only at hknown ⊢
  induction pending with
  | nil => exact ⟨[], rfl, rfl⟩
  | cons write rest ih =>
      obtain ⟨statement, hbind, hparcel⟩ :=
        Registry.bind_of_contains (hknown write List.mem_cons_self)
      obtain ⟨statements, hrest, hparcels⟩ :=
        ih (fun other hmem => hknown other (List.mem_cons_of_mem _ hmem))
      refine ⟨statement :: statements, ?_, ?_⟩
      · rw [List.mapM_cons, hbind, hrest]
        rfl
      · simp [hparcel, hparcels, Statement.parcel]

end RecordGroup

/-- A plan delivers some parcels: its calls hold them in order, no call is empty, and nothing
stays behind. -/
structure Plan.Delivers (plan : Plan) (parcels : List Parcel) : Prop where
  refusal : plan.refusal = none
  /-- Nothing is gathered without becoming part of a call. -/
  gathered : plan.gathered = .empty
  parcels : plan.calls.flatMap StatementGroup.parcels = parcels
  waiting : ∀ call ∈ plan.calls, call.waiting ≠ []

namespace Plan.Delivers

theorem nil : Plan.empty.Delivers [] where
  refusal := rfl
  gathered := rfl
  parcels := rfl
  waiting := by simp [Plan.empty]

theorem after
    {plan : Plan} {parcels : List Parcel} {calls : List StatementGroup}
    (h : plan.Delivers parcels) (hcalls : ∀ call ∈ calls, call.waiting ≠ []) :
    (plan.after calls).Delivers (calls.flatMap StatementGroup.parcels ++ parcels) where
  refusal := h.refusal
  gathered := h.gathered
  parcels := by simp [Plan.after, h.parcels]
  waiting := by
    intro call hmem
    rcases List.mem_append.1 hmem with hmem | hmem
    · exact hcalls call hmem
    · exact h.waiting call hmem

end Plan.Delivers

namespace RecordGroup

theorem append_empty (statement : Statement) (id : RequestId) :
    (StatementBatch.empty.append statement (some id)).2 =
      ⟨[⟨normalText statement.text, statement.isInsert, [⟨statement.params, some id⟩]⟩]⟩ :=
  rfl

/-- Behind an open run the writes of known root types are delivered in order.

The run is the one group that has been gathered, so a write is added to it, or the run is closed
and the write opens the next one. -/
theorem planAfter_delivers
    {registry : Registry} (batchSize : Nat) {pending : List (RequestId × Record)}
    (hknown : ∀ write ∈ pending, registry.contains write.2.root)
    (open_ : StatementGroup) (hopen : open_.waiting ≠ []) (run : Nat) :
    (planAfter registry batchSize pending ⟨[open_]⟩ (some open_.text) run).Delivers
      (open_.parcels ++ pending.filterMap registry.parcel?) := by
  induction pending generalizing open_ run with
  | nil =>
      refine ⟨rfl, rfl, by simp [planAfter], ?_⟩
      simpa [planAfter] using hopen
  | cons write rest ih =>
      obtain ⟨id, record⟩ := write
      obtain ⟨statement, hbind, hparcel⟩ :=
        Registry.bind_of_contains (hknown (id, record) List.mem_cons_self)
      have hrest : ∀ write ∈ rest, registry.contains write.2.root :=
        fun write hmem => hknown write (List.mem_cons_of_mem _ hmem)
      simp only at hbind
      simp only [planAfter, hbind, List.filterMap_cons, hparcel]
      split
      · have hnext := ih hrest
          ⟨normalText statement.text, statement.isInsert, [⟨statement.params, some id⟩]⟩
          (by simp) 1
        have hcalls : ∀ call ∈ [open_], call.waiting ≠ [] := by simpa using hopen
        simpa [append_empty, StatementGroup.parcels, Statement.parcel, Statement.normal]
          using hnext.after hcalls
      · next hstay =>
        have htext : open_.text = normalText statement.text := by
          by_contra hne
          exact hstay (Or.inr (by simpa using hne))
        have hadd : ((⟨[open_]⟩ : StatementBatch).append statement (some id)).2 =
            ⟨[open_.add ⟨statement.params, some id⟩]⟩ := by
          simp [StatementBatch.append, StatementBatch.place, htext]
        have hnext := ih hrest (open_.add ⟨statement.params, some id⟩)
          (by simp [StatementGroup.add]) (run + 1)
        rw [hadd, ← htext]
        simpa [StatementGroup.add, StatementGroup.parcels, Statement.parcel, Statement.normal,
          htext] using hnext

theorem plan_delivers
    {registry : Registry} (batchSize : Nat) {group : RecordGroup}
    (hknown : ∀ write ∈ group.pending, registry.contains write.2.root) :
    (group.plan registry batchSize .empty).Delivers (group.parcels registry) := by
  unfold plan parcels
  cases hpending : group.pending with
  | nil => exact Plan.Delivers.nil
  | cons write rest =>
      obtain ⟨id, record⟩ := write
      rw [hpending] at hknown
      obtain ⟨statement, hbind, hparcel⟩ :=
        Registry.bind_of_contains (hknown (id, record) List.mem_cons_self)
      have hrest : ∀ write ∈ rest, registry.contains write.2.root :=
        fun write hmem => hknown write (List.mem_cons_of_mem _ hmem)
      have hroom : ¬(0 = max batchSize 1) := by omega
      simp only at hbind
      simp only [planAfter, hbind, List.filterMap_cons, hparcel, hroom, Option.any_none,
        Bool.false_eq_true, or_self, if_false]
      have hnext := planAfter_delivers (max batchSize 1) hrest
        ⟨normalText statement.text, statement.isInsert, [⟨statement.params, some id⟩]⟩
        (by simp) 1
      simpa [append_empty, StatementGroup.parcels, Statement.parcel, Statement.normal]
        using hnext

end RecordGroup

/-- The calls that the plan of one group leads to, when nothing is gathered before it. -/
def RecordGroup.calls (registry : Registry) (batchSize : Nat) (group : RecordGroup) :
    List StatementGroup :=
  (group.plan registry batchSize .empty).calls

theorem planGroups_delivers
    {registry : Registry} (batchSize : Nat) {groups : List RecordGroup}
    (hknown : ∀ group ∈ groups, ∀ write ∈ group.pending, registry.contains write.2.root) :
    (planGroups registry batchSize groups).Delivers
        (groups.flatMap (RecordGroup.parcels registry)) ∧
      (planGroups registry batchSize groups).calls =
        groups.flatMap (RecordGroup.calls registry batchSize) := by
  induction groups with
  | nil => exact ⟨Plan.Delivers.nil, rfl⟩
  | cons group rest ih =>
      have hplan := RecordGroup.plan_delivers batchSize (hknown group List.mem_cons_self)
      obtain ⟨hrest, hcalls⟩ := ih (fun other hmem => hknown other (List.mem_cons_of_mem _ hmem))
      simp only [planGroups, hplan.refusal, List.flatMap_cons]
      constructor
      · rw [← hplan.parcels]
        exact hrest.after hplan.waiting
      · simp [Plan.after, hcalls, RecordGroup.calls]

end Cascade
