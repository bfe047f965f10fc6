import Cascade.Proofs.Calls

/-!
# What a flush does

A flush is one pass over the planned calls of a coordinator: the groups of
statements that wait, then the calls of the record groups in their order.  It
ends in one of two ways, and `flushWith_cases` says everything about both.
-/

namespace Cascade.Coordinator

variable {σ : Type}

def calls (registry : Registry) (c : Coordinator) : List StatementGroup :=
  c.statements.groups ++
    c.window.ordered.flatMap (RecordGroup.calls registry c.policy.batchSize)

/-- The parcels of all requests that wait, in the order in which a flush sends them. -/
def parcels (registry : Registry) (c : Coordinator) : List Parcel :=
  c.statements.parcels ++ c.window.ordered.flatMap (RecordGroup.parcels registry)

/-- What the invariant of a coordinator has to say about its buffers for a flush to go through:
the root types of all buffered writes are known, and no group of statements is empty. -/
structure Sendable (registry : Registry) (c : Coordinator) : Prop where
  known : ∀ group ∈ c.window.values, ∀ write ∈ group.pending, registry.contains write.2.root
  waiting : ∀ group ∈ c.statements.groups, group.waiting ≠ []

theorem mem_ordered_iff {window : Window} {group : RecordGroup} :
    group ∈ window.ordered ↔ group ∈ window.values :=
  (sortBy_perm _ _).mem_iff

namespace Sendable

variable {registry : Registry} {c : Coordinator}

theorem plan (h : c.Sendable registry) :
    (planGroups registry c.policy.batchSize c.window.ordered).Delivers
        (c.window.ordered.flatMap (RecordGroup.parcels registry)) ∧
      (planGroups registry c.policy.batchSize c.window.ordered).calls =
        c.window.ordered.flatMap (RecordGroup.calls registry c.policy.batchSize) :=
  planGroups_delivers _ (fun group hmem => h.known group (mem_ordered_iff.1 hmem))

theorem parcels_calls (h : c.Sendable registry) :
    (c.calls registry).flatMap StatementGroup.parcels = c.parcels registry := by
  rw [calls, List.flatMap_append, ← h.plan.2, h.plan.1.parcels]
  rfl

theorem call_waiting (h : c.Sendable registry) :
    ∀ call ∈ c.calls registry, call.waiting ≠ [] := by
  intro call hmem
  rcases List.mem_append.1 hmem with hmem | hmem
  · exact h.waiting call hmem
  · rw [← h.plan.2] at hmem
    exact h.plan.1.waiting call hmem

end Sendable

theorem groups_eq_nil_of_isEmpty {batch : StatementBatch} (h : batch.isEmpty = true) :
    batch.groups = [] :=
  List.isEmpty_iff.1 h

theorem calls_eq_nil_of_isDrained
    (registry : Registry) (batchSize : Nat) {window : Window} (h : window.isDrained = true) :
    window.ordered.flatMap (RecordGroup.calls registry batchSize) = [] := by
  rw [List.flatMap_eq_nil_iff]
  intro group hmem
  have hempty : group.isEmpty = true :=
    List.all_eq_true.1 h group (mem_ordered_iff.1 hmem)
  have hpending : group.pending = [] := List.isEmpty_iff.1 hempty
  simp [RecordGroup.calls, RecordGroup.plan, hpending, RecordGroup.planAfter, StatementBatch.empty]

theorem buffered_eq_zero_of_isDrained {window : Window} (h : window.isDrained = true) :
    window.buffered = 0 := by
  have hempty : ∀ groups : List RecordGroup, groups.all RecordGroup.isEmpty = true →
      sumOf (groups.map RecordGroup.size) = 0 := by
    intro groups hall
    induction groups with
    | nil => rfl
    | cons group rest ih =>
        rw [List.all_cons, Bool.and_eq_true] at hall
        have hsize : group.size = 0 := List.length_eq_zero_iff.2 (List.isEmpty_iff.1 hall.1)
        rw [List.map_cons, sumOf, hsize, ih hall.2]
  exact hempty _ h

theorem pending_eq_zero_of_isEmpty {c : Coordinator} (h : c.isEmpty = true) : c.pending = 0 := by
  rw [isEmpty, Bool.and_eq_true] at h
  rw [pending, bufferedRecords, buffered_eq_zero_of_isDrained h.2, StatementBatch.size,
    groups_eq_nil_of_isEmpty h.1]
  rfl

theorem executeStatements_eq [Store σ] (c : Coordinator) (b : Backing σ) :
    (c.executeStatements b).1 =
        (executeGroups c.policy.fetchKeys c.statements.groups {} b.store).1 ∧
      (c.executeStatements b).2.store =
        (executeGroups c.policy.fetchKeys c.statements.groups {} b.store).2 := by
  unfold executeStatements
  split
  · next h => simp [groups_eq_nil_of_isEmpty h, executeGroups]
  · split <;> next h => simp [h, Backing.note]

theorem store_announce (ctx : Context) (groups : List RecordGroup) (b : Backing σ) :
    (announce ctx groups b).store = b.store := by
  unfold announce
  split <;> rfl

/-- The records that wait are executed as the calls of their groups are. -/
theorem executeRecords_eq [Store σ] (ctx : Context) {c : Coordinator}
    (h : c.Sendable ctx.registry) (done : Totals) (b : Backing σ) :
    let calls := c.window.ordered.flatMap (RecordGroup.calls ctx.registry c.policy.batchSize)
    (c.executeRecords ctx done b).1 =
        (executeGroups c.policy.fetchKeys calls done b.store).1 ∧
      (c.executeRecords ctx done b).2.store =
        (executeGroups c.policy.fetchKeys calls done b.store).2 := by
  intro calls
  unfold executeRecords
  split
  · next hdrained =>
    have hcalls : calls = [] := calls_eq_nil_of_isDrained _ _ hdrained
    simp [hcalls, executeGroups]
  · obtain ⟨hplan, hcalls⟩ := h.plan
    simp only [Plan.execute, hplan.refusal, hcalls, store_announce]
    rcases executeGroups c.policy.fetchKeys calls done b.store with ⟨e | totals, after⟩
    · exact ⟨rfl, rfl⟩
    · exact ⟨rfl, rfl⟩

theorem executeBuffered_eq [Store σ] (ctx : Context) {c : Coordinator}
    (h : c.Sendable ctx.registry) (b : Backing σ) :
    (c.executeBuffered ctx b).1 =
        (executeGroups c.policy.fetchKeys (c.calls ctx.registry) {} b.store).1 ∧
      (c.executeBuffered ctx b).2.store =
        (executeGroups c.policy.fetchKeys (c.calls ctx.registry) {} b.store).2 := by
  obtain ⟨hresult, hstore⟩ := executeStatements_eq c b
  rw [calls, executeGroups_append]
  unfold executeBuffered
  rcases hfirst : executeGroups c.policy.fetchKeys c.statements.groups {} b.store with
    ⟨e | totals, after⟩
  all_goals
    rcases hstatements : c.executeStatements b with ⟨result, backing⟩
    rw [hfirst, hstatements] at hresult hstore
    simp only at hresult hstore
    subst hresult hstore
  · exact ⟨rfl, rfl⟩
  · exact executeRecords_eq ctx h totals backing

theorem result_flushWith [Store σ] (ctx : Context) (reset : Bool) {c : Coordinator}
    (h : c.Sendable ctx.registry) (b : Backing σ) :
    (c.flushWith ctx reset b).1 =
      (executeGroups c.policy.fetchKeys (c.calls ctx.registry) {} b.store).1 := by
  rw [← (executeBuffered_eq ctx h b).1]
  unfold flushWith
  rcases c.executeBuffered ctx b with ⟨e | totals, after⟩ <;> rfl

/-- The coordinator after a flush: settled if the flush succeeded, and wiped if it failed. -/
theorem coordinator_flushWith [Store σ] (ctx : Context) (reset : Bool) (c : Coordinator)
    (b : Backing σ) :
    (c.flushWith ctx reset b).2.1 =
      match (c.flushWith ctx reset b).1 with
      | .ok totals => c.settled reset totals
      | .error _ => c.wiped := by
  unfold flushWith
  rcases c.executeBuffered ctx b with ⟨e | totals, after⟩ <;> rfl

theorem settled_or_wiped [Store σ] (ctx : Context) (reset : Bool) (c : Coordinator)
    (b : Backing σ) :
    (∃ totals after, c.flushWith ctx reset b = (.ok totals, c.settled reset totals, after)) ∨
      ∃ e after, c.flushWith ctx reset b = (.error e, c.wiped, after) := by
  unfold flushWith
  rcases c.executeBuffered ctx b with ⟨e | totals, after⟩
  · exact Or.inr ⟨e, _, rfl⟩
  · exact Or.inl ⟨totals, _, rfl⟩

theorem policy_flushWith [Store σ] (ctx : Context) (reset : Bool) (c : Coordinator)
    (b : Backing σ) : (c.flushWith ctx reset b).2.1.policy = c.policy := by
  rw [coordinator_flushWith]
  split <;> rfl

theorem window_settled_pending (c : Coordinator) (reset : Bool) (totals : Totals) :
    ∀ group ∈ (c.settled reset totals).window.values, group.pending = [] := by
  intro group hmem
  cases reset with
  | true => cases hmem
  | false =>
      simp only [settled, Window.drained, Dictionary.values_mapValues, Bool.false_eq_true,
        if_false] at hmem
      obtain ⟨held, -, rfl⟩ := List.mem_map.1 hmem
      rfl

theorem isEmpty_settled (c : Coordinator) (reset : Bool) (totals : Totals) :
    (c.settled reset totals).isEmpty = true := by
  have hdrained : (c.settled reset totals).window.isDrained = true := by
    rw [Window.isDrained, List.all_eq_true]
    intro group hmem
    rw [RecordGroup.isEmpty, window_settled_pending c reset totals group hmem]
    rfl
  rw [isEmpty, hdrained]
  rfl

theorem isEmpty_flushWith [Store σ] (ctx : Context) (reset : Bool) (c : Coordinator)
    (b : Backing σ) : (c.flushWith ctx reset b).2.1.isEmpty = true := by
  rw [coordinator_flushWith]
  split
  · exact isEmpty_settled c reset _
  · rfl

/-- A flush executes nothing where nothing waits. -/
theorem flushWith_of_isEmpty [Store σ]
    {c : Coordinator} (h : c.isEmpty = true) (ctx : Context) (reset : Bool) (b : Backing σ) :
    c.flushWith ctx reset b = (.ok {}, c.settled reset {}, b) := by
  rw [isEmpty, Bool.and_eq_true] at h
  simp [flushWith, executeBuffered, executeStatements, executeRecords, countFlush, h.1, h.2]

/-- A flush succeeds after all planned calls and settles the coordinator, or it fails at a refused
call and wipes it. -/
theorem flushWith_cases [Store σ] (ctx : Context) (reset : Bool) {c : Coordinator}
    (h : c.Sendable ctx.registry) (b : Backing σ) :
    (∃ totals, attempted c.policy.fetchKeys (c.calls ctx.registry) b.store =
          (c.calls ctx.registry).map StatementGroup.accepted ∧
        (c.flushWith ctx reset b).1 = .ok totals ∧
        (c.flushWith ctx reset b).2.1 = c.settled reset totals ∧
        totals.statements = sumOf ((c.calls ctx.registry).map StatementGroup.size)) ∨
      ∃ sent refused rest e, c.calls ctx.registry = sent ++ refused :: rest ∧
        attempted c.policy.fetchKeys (c.calls ctx.registry) b.store =
          sent.map StatementGroup.accepted ++ [⟨refused, some e⟩] ∧
        (c.flushWith ctx reset b).1 = .error (.ofStore refused.text
          (sumOf (sent.map StatementGroup.size)) e) ∧
        (c.flushWith ctx reset b).2.1 = c.wiped := by
  have hresult := result_flushWith ctx reset h b
  have hafter := coordinator_flushWith ctx reset c b
  rcases executeGroups_cases c.policy.fetchKeys (c.calls ctx.registry) {} b.store with
    ⟨totals, hgroups, hattempted, hcount⟩ | ⟨sent, refused, rest, e, hcalls, hattempted, hgroups⟩
  all_goals
    rw [hgroups] at hresult
    rw [hresult] at hafter
  · exact Or.inl ⟨totals, hattempted, hresult, hafter, by simpa using hcount⟩
  · exact Or.inr ⟨sent, refused, rest, e, hcalls, hattempted, by simpa using hresult, hafter⟩

theorem store_flushWith [Store σ] (ctx : Context) (reset : Bool) {c : Coordinator}
    (h : c.Sendable ctx.registry) (b : Backing σ) :
    (c.flushWith ctx reset b).2.2.store =
      (executeGroups c.policy.fetchKeys (c.calls ctx.registry) {} b.store).2 := by
  rw [← (executeBuffered_eq ctx h b).2]
  unfold flushWith
  rcases c.executeBuffered ctx b with ⟨e | totals, after⟩
  · rfl
  · simp only [countFlush]
    split <;> rfl

/-- A watched store sees the attempts at the planned calls, and nothing else. -/
theorem flushWith_seen [Store σ] (ctx : Context) (reset : Bool) {c : Coordinator}
    (h : c.Sendable ctx.registry) (b : Backing (Watched σ)) :
    (c.flushWith ctx reset b).2.2.store.seen =
      b.store.seen ++ (attempted c.policy.fetchKeys (c.calls ctx.registry) b.store).map
        (Attempt.seen c.policy.fetchKeys) := by
  rw [store_flushWith ctx reset h, executeGroups_seen]

end Cascade.Coordinator
