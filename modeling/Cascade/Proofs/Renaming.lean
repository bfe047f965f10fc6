import Cascade.Proofs.Chronicle

/-!
# The name of a transaction

A transaction has a name, which is chosen at random.  It is told in entries of
the journal, and it has no influence on anything else: every operation commutes
with giving the transaction another name.
-/

namespace Cascade

namespace Journal

/-- An entry that tells of a transaction, told of one with another name. -/
def Entry.renamed (name : String) : Entry → Entry
  | .flushBegun groups _ => .flushBegun groups name
  | .summary _ message => .summary name message
  | .flushFailed code succeeded _ => .flushFailed code succeeded name
  | .cleared _ => .cleared name
  | .committed _ => .committed name
  | .rolledBack discarded _ => .rolledBack discarded name
  | .statementQueued size => .statementQueued size
  | .recordQueued kind root size => .recordQueued kind root size
  | .executedNow kind => .executedNow kind
  | .statementsFlushed statements => .statementsFlushed statements
  | .flushCompleted groups rows statements => .flushCompleted groups rows statements
  | .resetForced root => .resetForced root

theorem Entry.message?_renamed (name : String) (entry : Entry) :
    (entry.renamed name).message? = entry.message? := by
  cases entry <;> rfl

theorem summaries_renamed (name : String) (entries : List Entry) :
    summaries (entries.map (Entry.renamed name)) = summaries entries := by
  rw [summaries, List.filterMap_map]
  exact congrArg (entries.filterMap ·) (funext (Entry.message?_renamed name))

end Journal

open Journal

def Context.renamed (name : String) (ctx : Context) : Context :=
  { ctx with transaction := name }

@[simp] theorem Context.registry_renamed (name : String) (ctx : Context) :
    (ctx.renamed name).registry = ctx.registry := rfl

@[simp] theorem Context.summarise_renamed (name : String) (ctx : Context) :
    (ctx.renamed name).summarise = ctx.summarise := rfl

@[simp] theorem Context.transaction_renamed (name : String) (ctx : Context) :
    (ctx.renamed name).transaction = name := rfl

namespace Backing

variable {σ : Type}

/-- A backing whose journal tells of a transaction with another name. -/
def renamed (name : String) (b : Backing σ) : Backing σ :=
  { b with journal := b.journal.map (Entry.renamed name) }

@[simp] theorem store_renamed (name : String) (b : Backing σ) :
    (b.renamed name).store = b.store := rfl

@[simp] theorem renamed_note (name : String) (entry : Entry) (b : Backing σ) :
    (b.note entry).renamed name = (b.renamed name).note (entry.renamed name) := by
  simp [renamed, note]

@[simp] theorem renamed_count (name : String) (advance : Metrics → Metrics) (b : Backing σ) :
    (b.count advance).renamed name = (b.renamed name).count advance := rfl

theorem executeNow_renamed [Store σ]
    (name : String) (registry : Registry) (fetch : Bool) (request : Request) (b : Backing σ) :
    (b.renamed name).executeNow registry fetch request =
      ((b.executeNow registry fetch request).1,
        (b.executeNow registry fetch request).2.renamed name) := by
  unfold executeNow
  rw [store_renamed]
  rcases request.execute registry fetch b.store with ⟨e | outcome, after⟩
  · rfl
  · simp only [renamed_note, renamed_count]
    rfl

end Backing

/-- A step whose owner and backing are changed by functions. -/
def Step.via {γ σ α : Type} (owner : γ → γ) (backing : Backing σ → Backing σ) (step : Step γ σ α) :
    Step γ σ α :=
  (step.1, owner step.2.1, backing step.2.2)

/-- What holds of both parts of a step holds of the step. -/
theorem Step.via_andThen {γ σ α β : Type} {owner : γ → γ} {backing : Backing σ → Backing σ}
    {step : Step γ σ α} {next next' : α → γ → Backing σ → Step γ σ β}
    (h : ∀ a c b, next' a (owner c) (backing b) = (next a c b).via owner backing) :
    (step.via owner backing).andThen next' = (step.andThen next).via owner backing := by
  rcases step with ⟨e | a, c, b⟩
  · rfl
  · exact h a c b

namespace Coordinator

variable {σ α : Type}

abbrev renamed (name : String) (step : Step Coordinator σ α) : Step Coordinator σ α :=
  step.via id (Backing.renamed name)

variable [Store σ] (name : String) (ctx : Context) (c : Coordinator) (b : Backing σ)

theorem executeStatements_renamed :
    c.executeStatements (b.renamed name) =
      ((c.executeStatements b).1, (c.executeStatements b).2.renamed name) := by
  unfold executeStatements
  split
  · rfl
  · rw [Backing.store_renamed]
    rcases executeGroups c.policy.fetchKeys c.statements.groups {} b.store with ⟨e | totals, after⟩
    · rfl
    · simp only [Backing.renamed_note]
      rfl

omit [Store σ] in
theorem announce_renamed (groups : List RecordGroup) :
    announce (ctx.renamed name) groups (b.renamed name) = (announce ctx groups b).renamed name := by
  by_cases h : ctx.summarise = true
  · simp [announce, h, Entry.renamed]
  · simp [announce, h, Entry.renamed]

theorem executeRecords_renamed (done : Totals) :
    c.executeRecords (ctx.renamed name) done (b.renamed name) =
      ((c.executeRecords ctx done b).1, (c.executeRecords ctx done b).2.renamed name) := by
  unfold executeRecords
  split
  · rfl
  · simp only [announce_renamed, Backing.store_renamed, Context.registry_renamed]
    generalize (planGroups ctx.registry c.policy.batchSize c.window.ordered).execute
      c.policy.fetchKeys done (announce ctx c.window.ordered b).store = result
    rcases result with ⟨e | totals, after⟩
    · rfl
    · simp only [Backing.renamed_note]
      rfl

theorem executeBuffered_renamed :
    c.executeBuffered (ctx.renamed name) (b.renamed name) =
      ((c.executeBuffered ctx b).1, (c.executeBuffered ctx b).2.renamed name) := by
  unfold executeBuffered
  rw [executeStatements_renamed]
  rcases c.executeStatements b with ⟨e | totals, after⟩
  · rfl
  · exact executeRecords_renamed name ctx c after totals

theorem flushWith_renamed (reset : Bool) :
    c.flushWith (ctx.renamed name) reset (b.renamed name) =
      renamed name (c.flushWith ctx reset b) := by
  unfold flushWith
  rw [executeBuffered_renamed]
  rcases c.executeBuffered ctx b with ⟨e | totals, after⟩
  · simp only [renamed, Step.via, noteFailure, Backing.renamed_note]
    rfl
  · simp only [renamed, Step.via, countFlush]
    split <;> rfl

theorem flushIf_renamed (condition : Bool) :
    c.flushIf condition (ctx.renamed name) (b.renamed name) =
      renamed name (c.flushIf condition ctx b) := by
  unfold flushIf flush
  split
  · rw [flushWith_renamed]
    exact Step.via_andThen (fun _ _ _ => rfl)
  · rfl

theorem executeNow_renamed (request : Request) :
    c.executeNow (ctx.renamed name) request (b.renamed name) =
      renamed name (c.executeNow ctx request b) := by
  simp only [executeNow, Context.registry_renamed, Backing.executeNow_renamed]
  rfl

omit [Store σ] in
theorem noteQueued_renamed {entry : Entry} (h : entry.renamed name = entry) :
    noteQueued entry (b.renamed name) = (noteQueued entry b).renamed name := by
  simp [noteQueued, h]

theorem queueStatement_renamed (statement : Statement) :
    c.queueStatement (ctx.renamed name) statement (b.renamed name) =
      renamed name (c.queueStatement ctx statement b) := by
  simp only [queueStatement]
  rw [noteQueued_renamed name b rfl, flushIf_renamed]
  exact Step.via_andThen (fun _ _ _ => rfl)

theorem submitStatement_renamed (statement : Statement) (batch : Bool) :
    c.submitStatement (ctx.renamed name) statement batch (b.renamed name) =
      renamed name (c.submitStatement ctx statement batch b) := by
  unfold submitStatement
  rw [flushIf_renamed]
  apply Step.via_andThen
  intro _ c b
  cases batch with
  | true => exact queueStatement_renamed name ctx c b statement
  | false => exact executeNow_renamed name ctx c b (.statement statement)

theorem placeGroup_renamed (root : RootType) (relative : Int) :
    c.placeGroup (ctx.renamed name) root relative (b.renamed name) =
      renamed name (c.placeGroup ctx root relative b) := by
  unfold placeGroup flushReset
  rw [Context.registry_renamed]
  split
  · rfl
  · have hforced : ((b.renamed name).count Metrics.countForcedReset).note (.resetForced root.name) =
        ((b.count Metrics.countForcedReset).note (.resetForced root.name)).renamed name := by
      rw [Backing.renamed_note, Backing.renamed_count]
      rfl
    rw [hforced, flushWith_renamed]
    exact Step.via_andThen (fun _ _ _ => rfl)

theorem groupFor_renamed (root : RootType) (relative : Int) :
    c.groupFor (ctx.renamed name) root relative (b.renamed name) =
      renamed name (c.groupFor ctx root relative b) := by
  unfold groupFor openGroup
  split
  · rfl
  · rw [placeGroup_renamed]
    exact Step.via_andThen (fun _ _ _ => rfl)

theorem queueRecord_renamed (record : Record) :
    c.queueRecord (ctx.renamed name) record (b.renamed name) =
      renamed name (c.queueRecord ctx record b) := by
  simp only [queueRecord]
  rw [groupFor_renamed]
  apply Step.via_andThen
  intro group c b
  simp only [id]
  rw [noteQueued_renamed name b rfl, flushIf_renamed]
  exact Step.via_andThen (fun _ _ _ => rfl)

theorem submitRecord_renamed (record : Record) (batch : Bool) :
    c.submitRecord (ctx.renamed name) record batch (b.renamed name) =
      renamed name (c.submitRecord ctx record batch b) := by
  unfold submitRecord
  rw [Context.registry_renamed]
  split
  · rw [flushIf_renamed]
    apply Step.via_andThen
    intro _ c b
    cases batch with
    | true => exact queueRecord_renamed name ctx c b record
    | false => exact executeNow_renamed name ctx c b (.record record)
  · rfl

theorem submit_renamed (request : Request) (batch : Bool) :
    c.submit (ctx.renamed name) request batch (b.renamed name) =
      renamed name (c.submit ctx request batch b) := by
  cases request with
  | record r => exact submitRecord_renamed name ctx c b r batch
  | statement s => exact submitStatement_renamed name ctx c b s batch

/-- Every operation of a coordinator commutes with giving the transaction another name. -/
theorem perform_renamed (operation : Operation) :
    perform (ctx.renamed name) operation c (b.renamed name) =
      renamed name (perform ctx operation c b) := by
  cases operation with
  | submit request batch =>
      rw [perform, submit_renamed]
      exact Step.via_andThen (fun _ _ _ => rfl)
  | flush reset =>
      rw [perform, flushWith_renamed]
      exact Step.via_andThen (fun _ _ _ => rfl)
  | clear =>
      simp only [perform, clear, renamed, Step.via, Backing.renamed_note]
      rfl
  | setBatchSize | setFetchKeys | setFlushOnMixed | takeKeys => rfl

omit [Store σ] in
theorem discard_renamed :
    c.discard (ctx.renamed name) (b.renamed name) =
      ((c.discard ctx b).1, (c.discard ctx b).2.renamed name) := by
  simp only [discard, clear]
  split
  · rw [Backing.renamed_note]
    rfl
  · rfl

end Coordinator

namespace Transaction

variable {σ α : Type}

def renamed (name : String) (t : Transaction) : Transaction :=
  { t with context := t.context.renamed name }

abbrev stepRenamed (name : String) (step : Step Transaction σ α) : Step Transaction σ α :=
  step.via (renamed name) (Backing.renamed name)

variable (name : String) (t : Transaction) (b : Backing σ)

theorem whileActive_renamed
    {action action' : Transaction → Backing σ → Step Transaction σ α}
    (h : action' (t.renamed name) (b.renamed name) = stepRenamed name (action t b)) :
    (t.renamed name).whileActive (b.renamed name) action' =
      stepRenamed name (t.whileActive b action) := by
  by_cases hactive : t.state = .active
  · have hrenamed : (t.renamed name).state = .active := hactive
    rw [whileActive_of_active hactive, whileActive_of_active hrenamed, h]
  · rcases t with ⟨context, coordinator, depth, state, keys⟩
    cases state with
    | active => exact absurd rfl hactive
    | committed | rolledBack => rfl

theorem lift_renamed (step : Step Coordinator σ α) :
    (t.renamed name).lift (Coordinator.renamed name step) = stepRenamed name (t.lift step) := rfl

omit b in
theorem context_renamed : (t.renamed name).context = t.context.renamed name := rfl

omit b in
theorem coordinator_renamed : (t.renamed name).coordinator = t.coordinator := rfl

variable [Store σ]

theorem executeNow_renamed (request : Request) :
    (t.renamed name).executeNow request (b.renamed name) =
      stepRenamed name (t.executeNow request b) := by
  unfold executeNow
  rw [context_renamed, Context.registry_renamed, Backing.executeNow_renamed]
  rfl

theorem retire_renamed :
    (t.renamed name).retire (b.renamed name) = stepRenamed name (t.retire b) := by
  unfold retire
  rw [coordinator_renamed, context_renamed]
  rcases t.coordinator with _ | c
  · rfl
  · simp only [Coordinator.flush, Coordinator.flushWith_renamed]
    rcases c.flushWith t.context false b with ⟨e | totals, settled, after⟩
    · rfl
    · simp only [Coordinator.renamed, Step.via, id, Coordinator.discard_renamed]
      rfl

omit [Store σ] in
theorem rollback_renamed :
    (t.renamed name).rollback (b.renamed name) = stepRenamed name (t.rollback b) := by
  apply whileActive_renamed
  rw [coordinator_renamed, context_renamed]
  rcases t.coordinator with _ | c
  · simp only [Step.via, Backing.renamed_note]
    rfl
  · simp only [Step.via, Coordinator.discard_renamed, Backing.renamed_note]
    rfl

theorem commit_renamed :
    (t.renamed name).commit (b.renamed name) = stepRenamed name (t.commit b) := by
  apply whileActive_renamed
  rw [retire_renamed]
  apply Step.via_andThen
  intro _ t b
  simp only [Step.via, Backing.renamed_note]
  rfl

theorem submitted_renamed (request : Request) (batch : Bool) :
    (match (t.renamed name).coordinator with
      | some c => (t.renamed name).lift
          (c.submit (t.renamed name).context request batch (b.renamed name))
      | none => (t.renamed name).executeNow request (b.renamed name)) =
      stepRenamed name (match t.coordinator with
        | some c => t.lift (c.submit t.context request batch b)
        | none => t.executeNow request b) := by
  rw [coordinator_renamed, context_renamed]
  rcases t.coordinator with _ | c
  · exact executeNow_renamed name t b request
  · simp only [Coordinator.submit_renamed]
    exact lift_renamed name t _

/-- Every operation commutes with giving the transaction another name. -/
theorem perform_renamed (operation : Operation) :
    perform operation (t.renamed name) (b.renamed name) =
      stepRenamed name (perform operation t b) := by
  cases operation with
  | enable policy =>
      have henable : (t.renamed name).enableBatching policy (b.renamed name) =
          stepRenamed name (t.enableBatching policy b) := by
        apply whileActive_renamed
        rcases policy.check with cause | checked
        · rfl
        · simp only [retire_renamed]
          exact Step.via_andThen (fun _ _ _ => rfl)
      rw [perform, henable]
      exact Step.via_andThen (fun _ _ _ => rfl)
  | disable =>
      have hdisable : (t.renamed name).disableBatching (b.renamed name) =
          stepRenamed name (t.disableBatching b) :=
        whileActive_renamed name t b (retire_renamed name t b)
      rw [perform, hdisable]
      exact Step.via_andThen (fun _ _ _ => rfl)
  | save record =>
      have hsave : (t.renamed name).save record (b.renamed name) =
          stepRenamed name (t.save record b) :=
        whileActive_renamed name t b
          (submitted_renamed name t b (.record (record.withDepth t.depth)) true)
      rw [perform, hsave]
      exact Step.via_andThen (fun _ _ _ => rfl)
  | run statement =>
      have hrun : (t.renamed name).run statement (b.renamed name) =
          stepRenamed name (t.run statement b) :=
        whileActive_renamed name t b (submitted_renamed name t b (.statement statement) true)
      rw [perform, hrun]
      exact Step.via_andThen (fun _ _ _ => rfl)
  | runNow statement =>
      have hrun : (t.renamed name).runNow statement (b.renamed name) =
          stepRenamed name (t.runNow statement b) :=
        whileActive_renamed name t b (submitted_renamed name t b (.statement statement) false)
      rw [perform, hrun]
      exact Step.via_andThen (fun _ _ _ => rfl)
  | flush =>
      have hflush : (t.renamed name).flush (b.renamed name) = stepRenamed name (t.flush b) := by
        apply whileActive_renamed
        rw [coordinator_renamed, context_renamed]
        rcases t.coordinator with _ | c
        · rfl
        · simp only [Coordinator.flush, Coordinator.flushWith_renamed]
          exact lift_renamed name t _
      rw [perform, hflush]
      exact Step.via_andThen (fun _ _ _ => rfl)
  | coordinate operation =>
      simp only [perform, coordinate, coordinator_renamed, context_renamed]
      rcases t.coordinator with _ | c
      · rfl
      · simp only [Coordinator.perform_renamed]
        exact lift_renamed name t _
  | takeKeys =>
      simp only [perform, takeKeys, coordinator_renamed]
      rcases t.coordinator with _ | c <;> rfl
  | push | pop => rfl
  | commit =>
      rw [perform, commit_renamed]
      exact Step.via_andThen (fun _ _ _ => rfl)
  | rollback =>
      rw [perform, rollback_renamed]
      exact Step.via_andThen (fun _ _ _ => rfl)

end Transaction

end Cascade
