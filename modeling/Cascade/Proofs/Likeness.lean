import Cascade.Proofs.Line

/-!
# Coordinators that are flushed alike

The number of a request says to which request a generated key belongs, and the
cascade depth of a write says where a group is opened.  A write that waits in a
group has no further use for either, so they can be forgotten: a flush makes
the same calls, gets the same answers and leaves the same groups behind, only
that the generated keys are not attributed.
-/

namespace Cascade

variable {σ : Type}

/-! ## Forgetting numbers and cascade depths -/

/-- A parameter set that belongs to a request, whichever it is. -/
def Waiting.plain (entry : Waiting) : Waiting :=
  { entry with origin := entry.origin.map (fun _ => ⟨0⟩) }

def StatementGroup.plain (group : StatementGroup) : StatementGroup :=
  { group with waiting := group.waiting.map Waiting.plain }

def StatementBatch.plain (batch : StatementBatch) : StatementBatch :=
  ⟨batch.groups.map StatementGroup.plain⟩

def Plan.plain (plan : Plan) : Plan :=
  ⟨plan.calls.map StatementGroup.plain, plan.refusal, plan.gathered.plain⟩

/-- A buffered write without its number and its cascade depth. -/
def plainWrite (write : RequestId × Record) : RequestId × Record :=
  (⟨0⟩, write.2.withDepth 0)

/-- A group of records without the numbers and the cascade depths of its writes. -/
def RecordGroup.plain (group : RecordGroup) : RecordGroup :=
  { group with pending := group.pending.map plainWrite }

/-- What has been executed, with the keys that do not tell their requests. -/
def Totals.plain (totals : Totals) : Totals :=
  { totals with keys := totals.keys.map (fun key => (⟨0⟩, key.2)) }

/-! ## The calls of plain groups -/

theorem StatementGroup.plain_add (entry : Waiting) (group : StatementGroup) :
    (group.add entry).plain = group.plain.add entry.plain := by
  simp [plain, add]

theorem StatementBatch.place_plain
    (text : String) (isInsert : Bool) (entry : Waiting) (groups : List StatementGroup) :
    (place text isInsert entry.plain (groups.map StatementGroup.plain)).2 =
      (place text isInsert entry groups).2.map StatementGroup.plain := by
  induction groups with
  | nil => rfl
  | cons group rest ih =>
      by_cases htext : group.text = text
      · have htext' : group.plain.text = text := htext
        simp [place, htext, htext', StatementGroup.plain_add]
      · have htext' : group.plain.text ≠ text := htext
        simp [place, htext, htext', ih]

theorem StatementBatch.append_plain
    (statement : Statement) (id : RequestId) (batch : StatementBatch) :
    (batch.plain.append statement (some ⟨0⟩)).2 =
      (batch.append statement (some id)).2.plain :=
  congrArg StatementBatch.mk
    (place_plain _ _ ⟨statement.params, some id⟩ batch.groups)

theorem Plan.plain_after (calls : List StatementGroup) (plan : Plan) :
    (plan.after calls).plain = plan.plain.after (calls.map StatementGroup.plain) := by
  simp [plain, after]

/-- A statement does not tell the cascade depth of the write that is bound to it. -/
theorem Registry.bind_withDepth (registry : Registry) (depth : Int) (record : Record) :
    registry.bind (record.withDepth depth) = registry.bind record :=
  rfl

namespace RecordGroup

theorem planAfter_plain
    (registry : Registry) (batchSize : Nat) (pending : List (RequestId × Record))
    (gathered : StatementBatch) (text? : Option String) (run : Nat) :
    planAfter registry batchSize (pending.map plainWrite) gathered.plain text? run =
      (planAfter registry batchSize pending gathered text? run).plain := by
  induction pending generalizing gathered text? run with
  | nil => rfl
  | cons write rest ih =>
      obtain ⟨id, record⟩ := write
      simp only [List.map_cons, plainWrite, planAfter, Registry.bind_withDepth]
      rcases registry.bind record with e | statement
      · rfl
      · simp only
        split
        · rw [Plan.plain_after, ← ih, ← StatementBatch.append_plain]
          rfl
        · rw [← ih, ← StatementBatch.append_plain]

theorem calls_plain (registry : Registry) (batchSize : Nat) (group : RecordGroup) :
    group.plain.calls registry batchSize =
      (group.calls registry batchSize).map StatementGroup.plain :=
  congrArg Plan.calls (planAfter_plain registry _ group.pending .empty none 0)

theorem flatMap_calls_plain
    (registry : Registry) (batchSize : Nat) (groups : List RecordGroup) :
    (groups.map plain).flatMap (calls registry batchSize) =
      (groups.flatMap (calls registry batchSize)).map StatementGroup.plain := by
  induction groups with
  | nil => rfl
  | cons group rest ih => simp [calls_plain, ih]

end RecordGroup

theorem Window.map_plain_ordered (window : Window) :
    window.ordered.map RecordGroup.plain =
      sortBy RecordGroup.precedes (window.values.map RecordGroup.plain) :=
  (sortBy_map RecordGroup.plain (fun _ _ => rfl) window.values).symm

/-! ## Making the calls of plain groups -/

theorem StatementGroup.keysOf_plain (waiting : List Waiting) (keys : List Json.Datum) :
    keysOf (waiting.map Waiting.plain) keys =
      (keysOf waiting keys).map (fun key => (⟨0⟩, key.2)) := by
  induction waiting generalizing keys with
  | nil => rfl
  | cons entry rest ih =>
      obtain ⟨params, origin⟩ := entry
      cases keys with
      | nil => rfl
      | cons key later =>
          have hrest := ih later
          cases origin <;> simp_all [keysOf, Waiting.plain]

theorem StatementGroup.totals_plain (group : StatementGroup) (answer : BatchResult) :
    group.plain.totals answer = (group.totals answer).plain := by
  simp [totals, plain, Totals.plain, size, keysOf_plain]

theorem Totals.plain_add (a b : Totals) : (a.add b).plain = a.plain.add b.plain := by
  simp [plain, add]

theorem StatementGroup.paramSets_plain (group : StatementGroup) :
    group.plain.paramSets = group.paramSets := by
  simp [paramSets, plain, Function.comp_def, Waiting.plain]

/-- A store does not see for which requests its calls are made. -/
theorem executeGroups_plain [Store σ]
    (fetch : Bool) (groups : List StatementGroup) (done : Totals) (store : σ) :
    executeGroups fetch (groups.map StatementGroup.plain) done.plain store =
      ((executeGroups fetch groups done store).1.map Totals.plain,
        (executeGroups fetch groups done store).2) := by
  induction groups generalizing done store with
  | nil => rfl
  | cons group rest ih =>
      have hcall : Store.executeBatch group.plain.text group.plain.paramSets
          (fetch && group.plain.isInsert) store =
            Store.executeBatch group.text group.paramSets (fetch && group.isInsert) store := by
        rw [StatementGroup.paramSets_plain]
        rfl
      rw [List.map_cons, executeGroups, executeGroups, hcall]
      rcases Store.executeBatch group.text group.paramSets (fetch && group.isInsert) store with
        ⟨e | answer, after⟩
      · rfl
      · simp only [StatementGroup.totals_plain, ← Totals.plain_add, ih]

theorem cases_of_map_eq {ε α β : Type} {f : α → β} {x y : Except ε α}
    (h : x.map f = y.map f) :
    (∃ e, x = .error e ∧ y = .error e) ∨ ∃ a b, x = .ok a ∧ y = .ok b := by
  rcases x with e | a <;> rcases y with e' | b
  · cases h
    exact Or.inl ⟨e, rfl, rfl⟩
  · cases h
  · cases h
  · exact Or.inr ⟨a, b, rfl, rfl⟩

namespace Coordinator

/-! ## Flushes of plain groups -/

/-- Two coordinators with the same statements and the same groups at the same places, in which the
same writes wait, save for the numbers and the cascade depths of the writes. -/
structure Alike (c d : Coordinator) : Prop where
  policy : c.policy = d.policy
  statements : c.statements.groups = d.statements.groups
  groups : c.window.values.map RecordGroup.plain = d.window.values.map RecordGroup.plain
  places : c.window.drained = d.window.drained
  maxDepth : c.maxDepth = d.maxDepth

/-- Two flushes that have done the same: the answers are the same, save for the requests to which
their keys belong, and so are the stores, the groups that stay and the greatest depth. -/
structure FlushedAlike (first second : Step Coordinator σ Totals) : Prop where
  answer : first.1.map Totals.plain = second.1.map Totals.plain
  store : first.2.2.store = second.2.2.store
  window : first.2.1.window = second.2.1.window
  maxDepth : first.2.1.maxDepth = second.2.1.maxDepth

namespace Alike

variable {c d : Coordinator}

theorem calls (h : c.Alike d) (registry : Registry) :
    (c.calls registry).map StatementGroup.plain = (d.calls registry).map StatementGroup.plain := by
  simp only [Coordinator.calls, List.map_append, ← RecordGroup.flatMap_calls_plain,
    Window.map_plain_ordered, h.statements, h.policy, h.groups]

theorem settled (h : c.Alike d) (reset : Bool) (one two : Totals) :
    (c.settled reset one).window = (d.settled reset two).window ∧
      (c.settled reset one).maxDepth = (d.settled reset two).maxDepth := by
  cases reset with
  | true => exact ⟨rfl, rfl⟩
  | false => exact ⟨h.places, h.maxDepth⟩

theorem flushWith [Store σ]
    {ctx : Context} (h : c.Alike d) (hc : c.Sendable ctx.registry) (hd : d.Sendable ctx.registry)
    (reset : Bool) {b other : Backing σ} (hstore : b.store = other.store) :
    FlushedAlike (c.flushWith ctx reset b) (d.flushWith ctx reset other) := by
  have hgroups := executeGroups_plain d.policy.fetchKeys (d.calls ctx.registry) {} b.store
  rw [← h.calls, executeGroups_plain, Prod.mk.injEq, ← h.policy] at hgroups
  have hanswer : (c.flushWith ctx reset b).1.map Totals.plain =
      (d.flushWith ctx reset other).1.map Totals.plain := by
    rw [result_flushWith ctx reset hc, result_flushWith ctx reset hd, ← hstore, ← h.policy]
    exact hgroups.1
  have hafter : (c.flushWith ctx reset b).2.2.store = (d.flushWith ctx reset other).2.2.store := by
    rw [store_flushWith ctx reset hc, store_flushWith ctx reset hd, ← hstore, ← h.policy]
    exact hgroups.2
  have hleft := coordinator_flushWith ctx reset c b
  have hright := coordinator_flushWith ctx reset d other
  rcases cases_of_map_eq hanswer with ⟨e, hfirst, hsecond⟩ | ⟨one, two, hfirst, hsecond⟩
  all_goals
    rw [hfirst] at hleft
    rw [hsecond] at hright
  · exact ⟨hanswer, hafter, by rw [hleft, hright]; rfl, by rw [hleft, hright]; rfl⟩
  · obtain ⟨hwindow, hdepth⟩ := h.settled reset one two
    exact ⟨hanswer, hafter, by rw [hleft, hright, hwindow], by rw [hleft, hright, hdepth]⟩

end Alike

end Coordinator

end Cascade
