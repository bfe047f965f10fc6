import Cascade.Proofs.Flushes

/-!
# Counts at three levels

A flush adds up what it has executed in one running total.  The same total
comes about in three levels, each of which counts from nothing: one flush of
gathered statements, one group of records, which is executed through several of
those, and the whole flush.  A level takes in what the level below has executed;
where that fails, the error counts what the level had executed before.
-/

namespace Cascade

variable {σ : Type} [Store σ]

namespace Totals

theorem empty_add (totals : Totals) : ({} : Totals).add totals = totals := by
  simp [add]

theorem add_assoc (a b c : Totals) : (a.add b).add c = a.add (b.add c) := by
  simp [add, Nat.add_assoc]

/-- What was executed, behind what had been executed before; a failure counts the latter. -/
def absorb (done : Totals) : Except WriteError Totals → Except WriteError Totals
  | .ok totals => .ok (done.add totals)
  | .error e => .error (e.after done.statements)

end Totals

/-! ## One flush of gathered statements -/

/-- What was executed before need not be known while calls are made. -/
theorem executeGroups_eq_absorb
    (fetch : Bool) (groups : List StatementGroup) (done : Totals) (store : σ) :
    executeGroups fetch groups done store =
      (done.absorb (executeGroups fetch groups {} store).1,
        (executeGroups fetch groups {} store).2) := by
  induction groups generalizing done store with
  | nil => simp [executeGroups, Totals.absorb, Totals.add]
  | cons group rest ih =>
      rcases hcall : Store.executeBatch group.text group.paramSets (fetch && group.isInsert) store
        with ⟨e | answer, after⟩
      · simp [executeGroups, hcall, WriteError.ofStore, Totals.absorb, WriteError.after,
          Nat.add_comm]
      · simp only [executeGroups, hcall, Totals.empty_add]
        rw [ih (done.add _) after, ih (group.totals answer) after]
        rcases executeGroups fetch rest {} after with ⟨e | totals, last⟩
        · cases e <;>
            simp [Totals.absorb, WriteError.after, Totals.add, Nat.add_comm, Nat.add_left_comm]
        · simp [Totals.absorb, Totals.add_assoc]

/-! ## One group of records -/

/-- Execute writes behind statements that are gathered already.  What is gathered is flushed where
a run ends, and at the end; each of these flushes counts from nothing. -/
def executeRuns (registry : Registry) (batchSize : Nat) (fetch : Bool) :
    List (RequestId × Record) → StatementBatch → Option String → Nat → Totals → σ →
      Except WriteError Totals × σ
  | [], gathered, _, _, done, store =>
      let (flushed, _, after) := gathered.flush fetch store
      (done.absorb flushed, after)
  | (id, record) :: rest, gathered, text?, run, done, store =>
      match registry.bind record with
      | .error e => (.error e, store)
      | .ok statement =>
          let text := normalText statement.text
          if run = batchSize ∨ text?.any (· != text) then
            match gathered.flush fetch store with
            | (.ok totals, emptied, after) =>
                executeRuns registry batchSize fetch rest (emptied.append statement (some id)).2
                  (some text) 1 (done.add totals) after
            | (.error e, _, after) => (.error (e.after done.statements), after)
          else
            executeRuns registry batchSize fetch rest (gathered.append statement (some id)).2
              (some text) (run + 1) done store

theorem Plan.execute_after
    (fetch : Bool) (calls : List StatementGroup) (plan : Plan) (done : Totals) (store : σ) :
    (plan.after calls).execute fetch done store =
      match executeGroups fetch calls done store with
      | (.ok totals, after) => plan.execute fetch totals after
      | (.error e, after) => (.error e, after) := by
  simp only [execute, Plan.after, executeGroups_append]
  rcases executeGroups fetch calls done store with ⟨e | totals, after⟩
  · rfl
  · rfl

theorem executeRuns_eq
    (registry : Registry) (batchSize : Nat) (fetch : Bool) (pending : List (RequestId × Record))
    (gathered : StatementBatch) (text? : Option String) (run : Nat) (done : Totals) (store : σ) :
    executeRuns registry batchSize fetch pending gathered text? run done store =
      (RecordGroup.planAfter registry batchSize pending gathered text? run).execute fetch done
        store := by
  induction pending generalizing gathered text? run done store with
  | nil =>
      simp only [executeRuns, StatementBatch.flush, RecordGroup.planAfter, Plan.execute]
      rw [executeGroups_eq_absorb fetch gathered.groups done]
      rcases executeGroups fetch gathered.groups {} store with ⟨e | totals, after⟩
      · rfl
      · rfl
  | cons write rest ih =>
      obtain ⟨id, record⟩ := write
      rcases hbind : registry.bind record with e | statement
      · simp [executeRuns, RecordGroup.planAfter, hbind, Plan.execute, executeGroups]
      · simp only [executeRuns, RecordGroup.planAfter, hbind]
        split
        · -- The run ends here: what is gathered is flushed, and a new batch is begun.
          rw [Plan.execute_after, executeGroups_eq_absorb fetch gathered.groups done]
          simp only [StatementBatch.flush]
          rcases executeGroups fetch gathered.groups {} store with ⟨e | totals, after⟩
          · rfl
          · exact ih _ _ _ _ _
        · exact ih _ _ _ _ _

theorem RecordGroup.executeRuns_pending
    (registry : Registry) (batchSize : Nat) (fetch : Bool) (group : RecordGroup)
    (gathered : StatementBatch) (store : σ) :
    executeRuns registry (max batchSize 1) fetch group.pending gathered none 0 {} store =
      ((group.execute registry batchSize fetch gathered store).1,
        (group.execute registry batchSize fetch gathered store).2.2.2) := by
  rw [executeRuns_eq, Plan.execute, execute, plan]
  rcases executeGroups fetch _ {} store with ⟨e | totals, after⟩
  · rfl
  · dsimp only
    split <;> rfl

/-! ## The whole flush -/

/-- Execute groups of records one after the other, until one fails.  Each group counts from
nothing. -/
def executeInTurn (registry : Registry) (batchSize : Nat) (fetch : Bool) :
    List RecordGroup → Totals → σ → Except WriteError Totals × σ
  | [], done, store => (.ok done, store)
  | group :: rest, done, store =>
      match executeRuns registry (max batchSize 1) fetch group.pending .empty none 0 {} store with
      | (.ok totals, after) =>
          executeInTurn registry batchSize fetch rest (done.add totals) after
      | (.error e, after) => (.error (e.after done.statements), after)

/-- A write that is refused leaves nothing to count. -/
theorem RecordGroup.after_refusal_planAfter
    {registry : Registry} {batchSize : Nat} {pending : List (RequestId × Record)}
    {gathered : StatementBatch} {text? : Option String} {run : Nat} {e : WriteError}
    (h : (planAfter registry batchSize pending gathered text? run).refusal = some e)
    (earlier : Nat) : e.after earlier = e := by
  induction pending generalizing gathered text? run with
  | nil => cases h
  | cons write rest ih =>
      obtain ⟨id, record⟩ := write
      simp only [planAfter] at h
      rcases hbind : registry.bind record with cause | statement
      · rw [hbind] at h
        obtain rfl := Option.some.inj h
        unfold Registry.bind at hbind
        split at hbind
        · cases hbind
        · cases hbind
          rfl
      · rw [hbind] at h
        dsimp only at h
        split at h
        · exact ih h
        · exact ih h

/-- The plan of several groups is executed as the groups are, one after the other. -/
theorem execute_planGroups
    (registry : Registry) (batchSize : Nat) (fetch : Bool) (groups : List RecordGroup)
    (done : Totals) (store : σ) :
    (planGroups registry batchSize groups).execute fetch done store =
      executeInTurn registry batchSize fetch groups done store := by
  induction groups generalizing done store with
  | nil => rfl
  | cons group rest ih =>
      rw [executeInTurn, RecordGroup.executeRuns_pending, RecordGroup.execute, planGroups]
      rcases hrefusal : (group.plan registry batchSize .empty).refusal with _ | e
      · dsimp only
        rw [Plan.execute_after, executeGroups_eq_absorb]
        rcases executeGroups fetch (group.plan registry batchSize .empty).calls {} store with
          ⟨e | totals, after⟩
        · rfl
        · exact ih (done.add totals) after
      · have hsame := RecordGroup.after_refusal_planAfter hrefusal done.statements
        simp only [Plan.execute, hrefusal]
        rw [executeGroups_eq_absorb]
        rcases executeGroups fetch (group.plan registry batchSize .empty).calls {} store with
          ⟨e | totals, after⟩
        · rfl
        · simp only [Totals.absorb, hsame]

namespace Coordinator

/-- Execute all that waits: the statements as one batch, then the groups of records. -/
def drain (registry : Registry) (c : Coordinator) (store : σ) : Except WriteError Totals × σ :=
  match c.statements.flush c.policy.fetchKeys store with
  | (.error e, _, after) => (.error e, after)
  | (.ok totals, _, after) =>
      if c.window.isDrained then (.ok totals, after)
      else
        executeInTurn registry c.policy.batchSize c.policy.fetchKeys c.window.ordered totals after

theorem executeRecords_eq_executeInTurn
    (ctx : Context) (c : Coordinator) (done : Totals) (b : Backing σ) :
    ((c.executeRecords ctx done b).1, (c.executeRecords ctx done b).2.store) =
      if c.window.isDrained then (.ok done, b.store)
      else
        executeInTurn ctx.registry c.policy.batchSize c.policy.fetchKeys c.window.ordered done
          b.store := by
  unfold executeRecords
  split
  · rfl
  · rw [← execute_planGroups, ← store_announce ctx c.window.ordered b]
    dsimp only
    rcases (planGroups ctx.registry c.policy.batchSize c.window.ordered).execute
      c.policy.fetchKeys done (announce ctx c.window.ordered b).store with ⟨e | totals, last⟩
    · rfl
    · rfl

/-- A flush executes what waits, and counts what the three levels count. -/
theorem flushWith_eq_drain
    (ctx : Context) (reset : Bool) (c : Coordinator) (b : Backing σ) :
    ((c.flushWith ctx reset b).1, (c.flushWith ctx reset b).2.2.store) =
      c.drain ctx.registry b.store := by
  obtain ⟨hresult, hstore⟩ := executeStatements_eq c b
  unfold flushWith executeBuffered drain StatementBatch.flush
  rcases hgroups : executeGroups c.policy.fetchKeys c.statements.groups {} b.store with
    ⟨e | totals, last⟩
  all_goals
    rw [hgroups] at hresult hstore
    rcases hstatements : c.executeStatements b with ⟨answer, after⟩
    rw [hstatements] at hresult hstore
    cases hresult
    cases hstore
  · rfl
  · dsimp only
    rw [← executeRecords_eq_executeInTurn]
    rcases c.executeRecords ctx totals after with ⟨e | all, last⟩
    · rfl
    · simp only [countFlush]
      split <;> rfl

end Coordinator

end Cascade
