import Cascade.Proofs.FailedFlush
import Cascade.Proofs.Refusals

/-!
# Accounts

Three places keep count of what is executed: the counters, the errors and the
record of the store.  A statement is counted by the counters if its call was
part of a flush that succeeded or was a request executed at once; a statement in
front of a refused one is counted by the error alone.

Each move balances this account and that of the requests, and the error that an
operation ends with counts what its stages have executed in front of a refused
statement.
-/

namespace Cascade

open Json

/-- How many statements were executed in front of a refused one: the error tells their number, and
the counters do not count them. -/
def uncounted {α : Type} (answer : Except WriteError α) : Nat :=
  match answer with
  | .ok _ => 0
  | .error e => e.succeeded?.getD 0

@[simp] theorem uncounted_ok {α : Type} (a : α) : uncounted (.ok a) = 0 := rfl

/-! ## What the recording store records -/

namespace Memory

/-- A store is spared the next statements, or a failure is armed at one of them. -/
theorem spared_or_armed (count : Nat) (m : Memory) :
    m.Spared count ∨ ∃ p, 1 ≤ p ∧ p ≤ count ∧ m.failAt = some (m.executed.length + p) := by
  by_cases h : m.Spared count
  · exact Or.inl h
  · simp only [Spared, ne_eq, not_forall, not_not] at h
    obtain ⟨p, hpos, hle, harmed⟩ := h
    exact Or.inr ⟨p, hpos, hle, harmed⟩

@[simp] theorem length_log (m : Memory) : m.log.length = m.executed.length :=
  List.length_map _

/-- The record grows by as many statements as the totals of a pass count, or its error. -/
theorem length_executeGroups (fetch : Bool) (groups : List StatementGroup) (m : Memory) :
    (executeGroups fetch groups {} m).2.executed.length = m.executed.length +
      match (executeGroups fetch groups {} m).1 with
      | .ok totals => totals.statements
      | .error e => e.succeeded?.getD 0 := by
  have hparcels : ((groups.flatMap StatementGroup.parcels).map Parcel.statement).length =
      sumOf (groups.map StatementGroup.size) := by
    rw [← statements_calls fetch, Coordinator.length_statements_calls]
  rw [← length_log, ← length_log m]
  rcases m.spared_or_armed (sumOf (groups.map StatementGroup.size)) with
    hspared | ⟨p, hpos, hle, harmed⟩
  · obtain ⟨totals, after, hpass, hlog, -⟩ := executeGroups_of_spared fetch groups {} hspared
    have hcount : totals.statements = sumOf (groups.map StatementGroup.size) := by
      rcases executeGroups_cases fetch groups {} m with
        ⟨totals', hresult, -, hcount⟩ | ⟨sent, refused, rest, e, -, -, hresult⟩
      all_goals
        rw [hpass] at hresult
        cases hresult
      exact hcount.trans (Nat.zero_add _)
    rw [hpass, hlog, List.length_append, hparcels, ← hcount]
  · obtain ⟨⟨text, message, herror⟩, hlog⟩ :=
      executeGroups_of_armed fetch groups {} harmed hpos hle
    rw [herror, hlog, List.length_append, List.length_take, hparcels]
    simp only [WriteError.succeeded?, Option.getD_some]
    omega

/-- A statement that is executed on its own is recorded, unless it is refused; the refusal counts no
statement. -/
theorem length_execute (statement : Statement) (fetch : Bool) (m : Memory) :
    (Store.execute statement fetch m).2.executed.length = m.executed.length +
      match (Store.execute statement fetch m).1 with
      | .ok _ => 1
      | .error e => e.succeeded := by
  simp only [Store.execute, execute, record]
  by_cases harmed : m.failAt = some (m.executed.length + 1)
  · rw [if_pos harmed]
    rfl
  · rw [if_neg harmed]
    cases hfetch : fetch && statement.isInsert <;> simp [issueKey]

end Memory

theorem Request.eq_unknownRoot_of_bind
    {registry : Registry} {request : Request} {e : WriteError}
    (h : request.bind registry = .error e) : ∃ root, e = .unknownRoot root := by
  cases request with
  | record record =>
      rw [Request.bind, Registry.bind] at h
      split at h
      · cases h
      · cases h
        exact ⟨_, rfl⟩
  | statement s => cases h

theorem Backing.accounts_executeNow
    (registry : Registry) (fetch : Bool) (request : Request) (b : Backing Memory) :
    (b.executeNow registry fetch request).2.metrics.statements +
        uncounted (b.executeNow registry fetch request).1 + b.store.executed.length =
      (b.executeNow registry fetch request).2.store.executed.length + b.metrics.statements ∧
    (b.executeNow registry fetch request).2.metrics.queued = b.metrics.queued := by
  unfold Backing.executeNow Request.execute
  rcases hbound : request.bind registry with e | bound
  · obtain ⟨root, rfl⟩ := Request.eq_unknownRoot_of_bind hbound
    exact ⟨Nat.add_comm _ _, rfl⟩
  · have hlength := Memory.length_execute bound (fetch && bound.isInsert) b.store
    rcases hcall : Store.execute bound (fetch && bound.isInsert) b.store with ⟨e | result, after⟩
    all_goals
      rw [hcall] at hlength
      simp only [hcall, Backing.note, Backing.count, Metrics.countExecutedNow,
        Metrics.addStatements, and_true] at hlength ⊢
      simp only [uncounted, WriteError.ofStore, WriteError.succeeded?, Option.getD_some]
      omega

namespace Coordinator

variable {σ : Type} [Store σ] {ctx : Context}

/-! ## Flushes -/

theorem metrics_executeStatements (c : Coordinator) (b : Backing σ) :
    (c.executeStatements b).2.metrics = b.metrics := by
  unfold executeStatements
  split
  · rfl
  · split <;> rfl

omit [Store σ] in
theorem metrics_announce (ctx : Context) (groups : List RecordGroup) (b : Backing σ) :
    (announce ctx groups b).metrics = b.metrics := by
  unfold announce
  split <;> rfl

theorem metrics_executeRecords (ctx : Context) (c : Coordinator) (done : Totals) (b : Backing σ) :
    (c.executeRecords ctx done b).2.metrics = b.metrics := by
  unfold executeRecords
  split
  · rfl
  · simp only
    split <;> exact metrics_announce ctx _ b

theorem metrics_executeBuffered (ctx : Context) (c : Coordinator) (b : Backing σ) :
    (c.executeBuffered ctx b).2.metrics = b.metrics := by
  have hstatements := metrics_executeStatements c b
  unfold executeBuffered
  rcases hfirst : c.executeStatements b with ⟨e | totals, after⟩
  all_goals rw [hfirst] at hstatements
  · exact hstatements
  · exact (metrics_executeRecords ctx c totals after).trans hstatements

omit [Store σ] in
theorem metrics_countFlush (totals : Totals) (b : Backing σ) :
    (countFlush totals b).metrics.queued = b.metrics.queued ∧
      (countFlush totals b).metrics.statements = b.metrics.statements + totals.statements := by
  unfold countFlush
  split
  · exact ⟨rfl, rfl⟩
  · next hnone =>
    rw [Nat.eq_zero_of_not_pos hnone]
    exact ⟨rfl, rfl⟩

/-- A flush that succeeds counts its statements; no flush counts a request. -/
theorem metrics_flushWith (ctx : Context) (reset : Bool) (c : Coordinator) (b : Backing σ) :
    (c.flushWith ctx reset b).2.2.metrics.queued = b.metrics.queued ∧
    (c.flushWith ctx reset b).2.2.metrics.statements = b.metrics.statements +
      match (c.flushWith ctx reset b).1 with
      | .ok totals => totals.statements
      | .error _ => 0 := by
  have hmetrics := metrics_executeBuffered ctx c b
  unfold flushWith
  rcases hbuffered : c.executeBuffered ctx b with ⟨e | totals, after⟩
  all_goals
    rw [hbuffered] at hmetrics
    rw [← hmetrics]
  · exact ⟨rfl, rfl⟩
  · exact metrics_countFlush totals after

/-- What a flush over a recording store adds to the record is counted by its totals or its error. -/
theorem accounts_flushWith
    {c : Coordinator} (h : c.Sendable ctx.registry) (reset : Bool) (b : Backing Memory) :
    (c.flushWith ctx reset b).2.2.metrics.statements + uncounted (c.flushWith ctx reset b).1 +
        b.store.executed.length =
      (c.flushWith ctx reset b).2.2.store.executed.length + b.metrics.statements := by
  obtain ⟨-, hstatements⟩ := metrics_flushWith ctx reset c b
  have hlength := Memory.length_executeGroups c.policy.fetchKeys (c.calls ctx.registry) b.store
  rw [← store_flushWith ctx reset h, ← result_flushWith ctx reset h] at hlength
  rw [hstatements, hlength]
  rcases (c.flushWith ctx reset b).1 with e | totals
  all_goals
    simp only [uncounted]
    omega

/-- A flush that succeeds executes as many statements as requests have waited. -/
theorem statements_of_flushed
    {c : Coordinator} (h : c.Sendable ctx.registry) {reset : Bool} {b : Backing σ} {totals : Totals}
    (hok : (c.flushWith ctx reset b).1 = .ok totals) : totals.statements = c.pending := by
  have hcalls : sumOf ((c.calls ctx.registry).map StatementGroup.size) = c.pending := by
    rw [← length_statements_calls c.policy.fetchKeys, statements_calls, h.parcels_calls,
      List.length_map, length_parcels ctx.registry h]
  rcases flushWith_cases ctx reset h b with
    ⟨totals', -, hresult, -, hcount⟩ | ⟨sent, refused, rest, e, -, -, hresult, -⟩
  all_goals
    rw [hok] at hresult
    cases hresult
  exact hcount.trans hcalls

/-! ## Stages -/

namespace Stage

/-- How many statements a stage has executed in front of a refused one. -/
def uncounted (ctx : Context) : Stage σ → Nat
  | .flush reset c b => Cascade.uncounted (c.flushWith ctx reset b).1
  | .execute request fetch b => Cascade.uncounted (b.executeNow ctx.registry fetch request).1
  | .number | .queue _ _ | .force _ | .clear _ | .adjust => 0

def flushed (ctx : Context) : Stage σ → Nat
  | .flush reset c b =>
      match (c.flushWith ctx reset b).1 with
      | .ok totals => totals.statements
      | .error _ => 0
  | .number | .queue _ _ | .force _ | .execute _ _ _ | .clear _ | .adjust => 0

/-- How many requests a stage has wiped out of the buffers: all that waited in a flush that failed,
or in a coordinator that was cleared. -/
def wiped (ctx : Context) : Stage σ → Nat
  | .flush reset c b =>
      match (c.flushWith ctx reset b).1 with
      | .ok _ => 0
      | .error _ => c.pending
  | .clear c => c.pending
  | .number | .queue _ _ | .force _ | .execute _ _ _ | .adjust => 0

end Stage

section Moves

theorem pending_of_parcels
    {c d : Coordinator} (hc : c.Sendable ctx.registry) (hd : d.Sendable ctx.registry)
    {parcels : List Parcel}
    (hperm : (d.parcels ctx.registry).Perm (c.parcels ctx.registry ++ parcels)) :
    d.pending = c.pending + parcels.length := by
  rw [← length_parcels ctx.registry hc, ← length_parcels ctx.registry hd, hperm.length_eq,
    List.length_append]

theorem length_parcel?_of_contains
    {registry : Registry} {write : RequestId × Record} (h : registry.contains write.2.root) :
    (registry.parcel? write).toList.length = 1 := by
  obtain ⟨statement, -, hparcel⟩ := Registry.bind_of_contains h
  rw [hparcel]
  rfl

theorem pending_flushWith
    {c : Coordinator} {reset : Bool} {b : Backing σ}
    (h : (c.flushWith ctx reset b).2.1.Sendable ctx.registry) :
    (c.flushWith ctx reset b).2.1.pending = 0 := by
  rw [← length_parcels ctx.registry h, parcels_flushWith]
  rfl

/-- A move over a recording store is accounted for: what is recorded is counted by the counters or
by the refusal, and a request that is queued waits until it is executed or wiped. -/
theorem Move.accounts
    {stage : Stage Memory} {m next : Moment Memory} (hmove : Move ctx stage m next)
    (h : m.WellFormed ctx.registry) :
    next.backing.metrics.statements + stage.uncounted ctx + m.backing.store.executed.length =
        next.backing.store.executed.length + m.backing.metrics.statements ∧
      next.backing.metrics.queued + m.coordinator.pending =
        m.backing.metrics.queued + next.coordinator.pending + stage.flushed ctx +
          stage.wiped ctx := by
  obtain ⟨n, -, hnext⟩ := hmove.wellFormed h
  obtain ⟨k, -, hwell⟩ := h
  -- A request that is queued is one more that is counted and one more that waits.
  have hqueued : ∀ {before after : Nat} (queued : Nat), after = before + 1 →
      queued + 1 + before = queued + after + 0 + 0 := by
    omega
  cases hmove with
  | flush given reset c b =>
      refine ⟨accounts_flushWith hwell.sendable reset b, ?_⟩
      have hnone := pending_flushWith hnext.sendable
      obtain ⟨hsame, -⟩ := metrics_flushWith ctx reset c b
      simp only [Stage.flushed, Stage.wiped, hnone, hsame]
      rcases hresult : (c.flushWith ctx reset b).1 with e | totals
      · rfl
      · simp [statements_of_flushed hwell.sendable hresult]
  | number | force | adjust => exact ⟨Nat.add_comm _ _, rfl⟩
  | statement s c b =>
      have hpending := pending_of_parcels hwell.sendable hnext.sendable
        (parcels_withStatement ctx.registry c s)
      exact ⟨Nat.add_comm _ _, hqueued b.metrics.queued hpending⟩
  | member record group c b hknown hget =>
      have hpending := pending_of_parcels hwell.sendable hnext.sendable
        (parcels_withRecord_member ctx.registry c hget)
      rw [length_parcel?_of_contains hknown] at hpending
      exact ⟨Nat.add_comm _ _, hqueued b.metrics.queued hpending⟩
  | entrant record depth c b hknown hget _ =>
      have hpending := pending_of_parcels hwell.sendable hnext.sendable
        (parcels_withRecord_entrant ctx.registry c hget depth)
      rw [length_parcel?_of_contains hknown] at hpending
      exact ⟨Nat.add_comm _ _, hqueued b.metrics.queued hpending⟩
  | execute given request c b =>
      obtain ⟨hstatements, hsame⟩ :=
        Backing.accounts_executeNow ctx.registry c.policy.fetchKeys request b
      exact ⟨hstatements, congrArg (· + c.pending) hsame⟩
  | clear given c b =>
      have hnone : c.wiped.pending = 0 := rfl
      refine ⟨Nat.add_comm _ _, ?_⟩
      change b.metrics.queued + c.pending = b.metrics.queued + c.wiped.pending + 0 + c.pending
      omega

/-- What the accounts are after some stages, from the moment at which they were opened. -/
structure Accounts (ctx : Context) (opening : Moment Memory) (history : List (Stage Memory))
    (m : Moment Memory) : Prop where
  wellFormed : m.WellFormed ctx.registry
  statements : m.backing.metrics.statements + sumOf (history.map (Stage.uncounted ctx)) +
      opening.backing.store.executed.length =
    m.backing.store.executed.length + opening.backing.metrics.statements
  queued : m.backing.metrics.queued + opening.coordinator.pending =
    opening.backing.metrics.queued + m.coordinator.pending +
      sumOf (history.map (Stage.flushed ctx)) + sumOf (history.map (Stage.wiped ctx))

theorem Accounts.opened {m : Moment Memory} (h : m.WellFormed ctx.registry) :
    Accounts ctx m [] m where
  wellFormed := h
  statements := Nat.add_comm _ _
  queued := rfl

theorem Accounts.step
    {opening m next : Moment Memory} {history : List (Stage Memory)} {stage : Stage Memory}
    (h : Accounts ctx opening history m) (hmove : Move ctx stage m next) :
    Accounts ctx opening (history ++ [stage]) next := by
  obtain ⟨hwell, hstatements, hqueued⟩ := h
  obtain ⟨hrecorded, hwaiting⟩ := hmove.accounts hwell
  constructor
  case wellFormed => exact hmove.wellFormed hwell
  case statements =>
    simp only [List.map_append, List.map_cons, List.map_nil, sumOf_append, sumOf]
    omega
  case queued =>
    simp only [List.map_append, List.map_cons, List.map_nil, sumOf_append, sumOf]
    omega

theorem Path.accounts
    {stages : List (Stage Memory)} {m last : Moment Memory} (hpath : Path ctx stages m last)
    (h : m.WellFormed ctx.registry) : Accounts ctx m stages last :=
  hpath.accumulates (P := Accounts ctx m) (fun hmove haccounts => haccounts.step hmove) (.opened h)

end Moves

/-! ## The error of an operation -/

/-- Whether a stage may ask the store for something. -/
def Stage.reaches : Stage σ → Bool
  | .flush _ _ _ | .execute _ _ _ => true
  | .number | .queue _ _ | .force _ | .clear _ | .adjust => false

/-- A step that is composed of flushes, requests that are executed at once, and stages that cannot
fail. -/
inductive Traced.Composed (ctx : Context) : {α : Type} → Traced σ α → Prop
  | done {α : Type} (a : α) (c : Coordinator) (b : Backing σ) : Composed ctx (.done a c b)
  | unknown {α : Type} (root : RootType) (c : Coordinator) (b : Backing σ) :
      Composed ctx (([], .error (.unknownRoot root), c, b) : Traced σ α)
  | flush (reset : Bool) (c : Coordinator) (b : Backing σ) : Composed ctx (traceFlush ctx reset c b)
  | execute (request : Request) (c : Coordinator) (b : Backing σ) :
      Composed ctx (traceExecute ctx request c b)
  | stage {α : Type} (stage : Stage σ) (a : α) (c : Coordinator) (b : Backing σ) :
      stage.reaches = false → Composed ctx ([stage], (.ok a, c, b))
  | andThen {α β : Type} {t : Traced σ α} {next : α → Coordinator → Backing σ → Traced σ β} :
      Composed ctx t → (∀ a c b, Composed ctx (next a c b)) → Composed ctx (t.andThen next)

section Composition

variable (ctx)

theorem composed_traceFlushIf (condition : Bool) (c : Coordinator) (b : Backing σ) :
    (traceFlushIf ctx condition c b).Composed ctx := by
  unfold traceFlushIf
  split
  · exact .andThen (.flush false c b) (fun _ c b => .done () c b)
  · exact .done () c b

theorem composed_tracePlaceGroup
    (root : RootType) (relative : Int) (c : Coordinator) (b : Backing σ) :
    (tracePlaceGroup ctx root relative c b).Composed ctx := by
  unfold tracePlaceGroup
  split
  · exact .done _ c b
  · apply Traced.Composed.andThen (.stage (.force root) () c _ rfl)
    intro _ c b
    exact .andThen (.flush true c b) (fun _ c b => .done _ c b)

theorem composed_traceFile (record : Record) (c : Coordinator) (b : Backing σ) :
    (traceFile ctx record c b).Composed ctx := by
  unfold traceFile
  split
  · exact .stage (.queue c.latest (.record record)) () _ _ rfl
  · exact .andThen (composed_tracePlaceGroup ctx _ _ c b)
      (fun _ c _ => .stage (.queue c.latest (.record record)) () _ _ rfl)

theorem composed_traceQueue (request : Request) (c : Coordinator) (b : Backing σ) :
    (traceQueue ctx request c b).Composed ctx := by
  cases request with
  | record r =>
      simp only [traceQueue, traceQueueRecord]
      apply Traced.Composed.andThen (.stage .number () c.numbered b rfl)
      intro _ n b
      apply Traced.Composed.andThen (composed_traceFile ctx r n b)
      intro _ queued b
      exact .andThen (composed_traceFlushIf ctx _ queued b) (fun _ c b => .done _ c b)
  | statement s =>
      simp only [traceQueue, traceQueueStatement]
      apply Traced.Composed.andThen (.stage .number () c.numbered b rfl)
      intro _ n b
      apply Traced.Composed.andThen (.stage (.queue n.latest (.statement s)) () _ _ rfl)
      intro _ queued b
      exact .andThen (composed_traceFlushIf ctx _ queued b) (fun _ c b => .done _ c b)

theorem composed_traceSubmit
    (request : Request) (batch : Bool) (c : Coordinator) (b : Backing σ) :
    (traceSubmit ctx request batch c b).Composed ctx := by
  by_cases hknown : request.Known ctx.registry
  · rw [traceSubmit_of_known hknown]
    apply Traced.Composed.andThen (composed_traceFlushIf ctx _ c b)
    intro _ c b
    cases batch with
    | true => exact composed_traceQueue ctx request c b
    | false => exact .execute request c b
  · obtain ⟨root, hrefused⟩ := traceSubmit_of_unknown hknown batch c b
    rw [hrefused]
    exact .unknown root c b

theorem composed_trace (operation : Operation) (c : Coordinator) (b : Backing σ) :
    (trace ctx operation c b).Composed ctx := by
  cases operation with
  | submit request batch =>
      exact .andThen (composed_traceSubmit ctx request batch c b) (fun _ c b => .done _ c b)
  | flush reset => exact .andThen (.flush reset c b) (fun _ c b => .done _ c b)
  | clear | setBatchSize | setFetchKeys | setFlushOnMixed | takeKeys =>
      exact .stage _ _ _ _ rfl

variable {ctx}

/-- The answer of a step tells what its stages have executed in front of a refused statement. -/
theorem Traced.Composed.uncounted
    {α : Type} {t : Traced σ α} (h : t.Composed ctx) :
    sumOf (t.1.map (Stage.uncounted ctx)) = Cascade.uncounted t.2.1 := by
  induction h with
  | done | unknown => rfl
  | flush | execute => exact Nat.add_zero _
  | stage stage a c b hreaches =>
      cases stage with
      | flush | execute => cases hreaches
      | number | queue | force | clear | adjust => rfl
  | @andThen α β t next _ _ ih ihnext =>
      obtain ⟨stages, e | a, c, b⟩ := t
      · exact ih
      · have hnone : sumOf (stages.map (Stage.uncounted ctx)) = 0 := ih
        simp only [Traced.andThen, List.map_append, sumOf_append, hnone, Nat.zero_add]
        exact ihnext a c b

end Composition

/-- An operation over a recording store is accounted for. -/
theorem Reachable.accounts
    {c : Coordinator} (hc : Reachable ctx c) (operation : Operation) (b : Backing Memory) :
    (perform ctx operation c b).2.2.metrics.statements +
          Cascade.uncounted (perform ctx operation c b).1 + b.store.executed.length =
        (perform ctx operation c b).2.2.store.executed.length + b.metrics.statements ∧
      (perform ctx operation c b).2.2.metrics.queued + c.pending =
        b.metrics.queued + (perform ctx operation c b).2.1.pending +
          sumOf ((stages ctx operation c b).map (Stage.flushed ctx)) +
          sumOf ((stages ctx operation c b).map (Stage.wiped ctx)) := by
  obtain ⟨n, hle, hwell⟩ := hc.wellFormed
  obtain ⟨last, hpath⟩ := path_stages ctx false operation c b
  have haccounts := hpath.accounts ⟨n, ⟨hle, nofun⟩, hwell⟩
  have htold := (composed_trace ctx operation c b).uncounted
  rw [trace_snd] at htold
  rw [← htold]
  exact ⟨haccounts.statements, haccounts.queued⟩

end Coordinator

end Cascade
