import Cascade.Proofs.Precedence
import Cascade.Proofs.SubmissionOrder

/-!
# Statements and records apart

While the policy does not let statements and records wait side by side, one of
the two buffers is empty at any time.  Every flush sends statements before
records; since there are never both, a statement and a record write are executed
in the order in which they were submitted all the same.
-/

namespace Cascade.Coordinator

variable {σ : Type}

/-- Statements or records wait, but not both. -/
def Unmixed (c : Coordinator) : Prop :=
  c.statements.isEmpty = true ∨ c.bufferedRecords = 0

/-- Nothing of the other kind waits beside a request. -/
def Admits (request : Request) (c : Coordinator) : Prop :=
  match request with
  | .record _ => c.statements.isEmpty = true
  | .statement _ => c.window.isDrained = true

section Kinds

variable {registry : Registry} {request : Request} {c : Coordinator}

theorem Admits.unmixed (h : c.Admits request) : c.Unmixed := by
  cases request with
  | record r => exact Or.inl h
  | statement s => exact Or.inr (buffered_eq_zero_of_isDrained h)

/-- Where nothing of the other kind waits, every slot of the line is of the same kind. -/
theorem Admits.kind_of_mem_line
    (h : c.Admits request) {ticket : Ticket} (hmem : ticket.slot ∈ c.line registry) :
    ticket.request.root?.isSome = request.root?.isSome := by
  rcases List.mem_append.1 hmem with hmem | hmem
  all_goals obtain ⟨group, hgroup, hslot⟩ := List.mem_flatMap.1 hmem
  · have hlane : ticket.request.lane = .text group.text := StatementGroup.lane_of_mem_slots hslot
    cases request with
    | record r =>
        rw [groups_eq_nil_of_isEmpty h] at hgroup
        cases hgroup
    | statement s =>
        cases hrequest : ticket.request with
        | statement other => rfl
        | record other =>
            rw [hrequest] at hlane
            cases hlane
  · have hlane : ticket.request.lane = .root group.root := RecordGroup.lane_of_mem_slots hslot
    cases request with
    | record r =>
        cases hrequest : ticket.request with
        | record other => rfl
        | statement other =>
            rw [hrequest] at hlane
            cases hlane
    | statement s =>
        have hempty : group.isEmpty = true := List.all_eq_true.1 h group (mem_ordered_iff.1 hgroup)
        have hnone : group.slots registry = [] := by
          simp [RecordGroup.slots, RecordGroup.parcels, List.isEmpty_iff.1 hempty]
        rw [hnone] at hslot
        cases hslot

end Kinds

/-! ## While a request is submitted -/

section Submission

variable [Store σ] {ctx : Context} {request : Request} {stage : Stage σ}
  {listed : List (Stage σ)} {m next last : Moment σ} {c : Coordinator}

theorem admits_flushWith (request : Request) (reset : Bool) (c : Coordinator) (b : Backing σ) :
    (c.flushWith ctx reset b).2.1.Admits request := by
  rw [coordinator_flushWith]
  cases request with
  | record r => split <;> rfl
  | statement s =>
      rw [Admits, Window.isDrained, List.all_eq_true]
      intro group hmem
      split at hmem
      · rw [RecordGroup.isEmpty, window_settled_pending c reset _ group hmem]
        rfl
      · cases hmem

/-- In a stage in which a request is buffered, nothing of the other kind comes in. -/
theorem Move.admits (hmove : Move ctx stage m next) (hbuffers : stage.Buffers request)
    (h : m.coordinator.Admits request) : next.coordinator.Admits request := by
  cases hmove with
  | flush given reset c b => exact admits_flushWith request reset c b
  | statement s c b =>
      cases hbuffers
      exact h
  | member record group c b _ _ =>
      cases hbuffers
      exact h
  | entrant record depth c b _ _ _ =>
      cases hbuffers
      exact h
  | number | force => exact h
  | execute | clear | adjust => cases hbuffers

theorem Path.admits
    (hpath : Path ctx listed m last) (hbuffers : ∀ stage ∈ listed, stage.Buffers request)
    (h : m.coordinator.Admits request) :
    last.coordinator.Admits request ∧
      ∀ reset d begun, .flush reset d begun ∈ listed → d.Admits request := by
  induction hpath with
  | nil => exact ⟨h, nofun⟩
  | cons hmove _ ih =>
      obtain ⟨hstage, hrest⟩ := List.forall_mem_cons.1 hbuffers
      obtain ⟨hlast, hflushes⟩ := ih hrest (hmove.admits hstage h)
      refine ⟨hlast, ?_⟩
      intro reset d begun hmem
      rcases List.mem_cons.1 hmem with rfl | hmem
      · cases hmove
        exact h
      · exact hflushes reset d begun hmem

/-- After a flush that is made at least where one is due, nothing of the other kind waits. -/
theorem admits_of_mixes
    (hmixed : c.policy.flushOnMixed = true) {condition : Bool}
    (hdue : c.mixes request = true → condition = true) (b : Backing σ) :
    (if condition then (c.flushWith ctx false b).2.1 else c).Admits request := by
  split
  · exact admits_flushWith request false c b
  · next h =>
    have hnot : c.mixes request = false := by
      rw [← Bool.not_eq_true]
      exact fun hmixes => h (hdue hmixes)
    cases request with
    | record r => simpa [mixes, hmixed, Admits] using hnot
    | statement s => simpa [mixes, hmixed, Admits] using hnot

/-- After a submission nothing of the other kind waits, and every flush in it begins so, but for
the one that comes first. -/
theorem admits_submit (ctx : Context)
    (hmixed : c.policy.flushOnMixed = true) (hknown : request.Known ctx.registry) (batch : Bool)
    (b : Backing σ) :
    (perform ctx (.submit request batch) c b).2.1.Admits request ∧
      ∀ reset d begun, .flush reset d begun ∈ stages ctx (.submit request batch) c b →
        d = c ∨ d.Admits request := by
  have hdue : c.mixes request = true → (!batch || c.mixes request) = true := by
    intro hmixes
    rw [hmixes, Bool.or_true]
  have hadmits : (traceFlushIf ctx (!batch || c.mixes request) c b).2.2.1.Admits request := by
    rw [traceFlushIf_coordinator]
    exact admits_of_mixes hmixed hdue b
  have hfirst : ∀ {reset d begun},
      .flush reset d begun ∈ (traceFlushIf ctx (!batch || c.mixes request) c b).1 → d = c := by
    intro reset d begun hmem
    cases (mem_traceFlushIf_iff.1 hmem).2
    rfl
  rw [perform_submit, stages_submit, traceSubmit_of_known hknown]
  generalize traceFlushIf ctx (!batch || c.mixes request) c b = flushed at hadmits hfirst ⊢
  obtain ⟨flushes, e | _, c', b'⟩ := flushed
  · exact ⟨hadmits, fun _ _ _ hmem => Or.inl (hfirst hmem)⟩
  · cases batch with
    | false =>
        refine ⟨hadmits, ?_⟩
        intro reset d begun hmem
        rcases List.mem_append.1 hmem with hmem | hmem
        · exact Or.inl (hfirst hmem)
        · cases List.mem_singleton.1 hmem
    | true =>
        obtain ⟨flag, hpath⟩ := leads_traceQueue hknown false c' b'
        obtain ⟨hlast, hflushes⟩ := hpath.admits (buffers_traceQueue ctx request c' b') hadmits
        refine ⟨hlast, ?_⟩
        intro reset d begun hmem
        rcases List.mem_append.1 hmem with hmem | hmem
        · exact Or.inl (hfirst hmem)
        · exact Or.inr (hflushes reset d begun hmem)

theorem flushOnMixed_perform
    (hmixed : c.policy.flushOnMixed = true) {operation : Operation}
    (hne : operation ≠ .setFlushOnMixed false) (b : Backing σ) :
    (perform ctx operation c b).2.1.policy.flushOnMixed = true := by
  have hsame : operation.adjusts = false →
      (perform ctx operation c b).2.1.policy.flushOnMixed = true := by
    intro hnot
    rw [policy_perform ctx hnot]
    exact hmixed
  cases operation with
  | submit | flush | clear => exact hsame rfl
  | takeKeys => exact hmixed
  | setBatchSize size =>
      simp only [perform, setBatchSize]
      split <;> exact hmixed
  | setFetchKeys choice => cases choice <;> exact hmixed
  | setFlushOnMixed flush =>
      cases flush with
      | true => rfl
      | false => exact absurd rfl hne

/-- While the policy does not let them, statements and records never wait side by side: not after
an operation, and not when a flush begins. -/
theorem unmixed_perform (ctx : Context)
    (hmixed : c.policy.flushOnMixed = true) (h : c.Unmixed) (operation : Operation)
    (b : Backing σ) :
    (perform ctx operation c b).2.1.Unmixed ∧
      ∀ reset d begun, .flush reset d begun ∈ stages ctx operation c b → d.Unmixed := by
  cases operation with
  | submit request batch =>
      by_cases hknown : request.Known ctx.registry
      · obtain ⟨hadmits, hflushes⟩ := admits_submit ctx hmixed hknown batch b
        refine ⟨hadmits.unmixed, ?_⟩
        intro reset d begun hmem
        rcases hflushes reset d begun hmem with rfl | hadmits
        · exact h
        · exact hadmits.unmixed
      · obtain ⟨root, hrefused⟩ := traceSubmit_of_unknown hknown batch c b
        rw [perform_submit, stages_submit, hrefused]
        exact ⟨h, nofun⟩
  | flush reset =>
      rw [coordinator_flush, stages_flush]
      refine ⟨(admits_flushWith (.statement ⟨"", []⟩) reset c b).unmixed, ?_⟩
      intro reset d begun hmem
      cases List.mem_singleton.1 hmem
      exact h
  | clear => exact ⟨Or.inl rfl, fun _ _ _ hmem => nomatch List.mem_singleton.1 hmem⟩
  | setBatchSize size =>
      refine ⟨?_, fun _ _ _ hmem => nomatch List.mem_singleton.1 hmem⟩
      simp only [perform, setBatchSize]
      split <;> exact h
  | setFetchKeys choice =>
      refine ⟨?_, fun _ _ _ hmem => nomatch List.mem_singleton.1 hmem⟩
      cases choice <;> exact h
  | setFlushOnMixed | takeKeys =>
      exact ⟨h, fun _ _ _ hmem => nomatch List.mem_singleton.1 hmem⟩

end Submission

/-! ## The order of statements and records -/

/-- Statements and record writes are executed in the order in which they were submitted, although
a flush sends statements first: they never wait side by side. -/
structure KeptApart [Store σ] (registry : Registry) (acts : List (Act (Watched σ)))
    (c : Coordinator) (b : Backing (Watched σ)) : Prop where
  /-- No statements wait, or no record writes do. -/
  unmixed : c.statements.isEmpty = true ∨ c.bufferedRecords = 0
  /-- It was so when a flush began. -/
  flushes : ∀ act ∈ acts, ∀ reset d begun, .flush reset d begun ∈ act.stages →
    d.statements.isEmpty = true ∨ d.bufferedRecords = 0
  /-- A flush makes the calls of statements first, and those of record groups after them. -/
  statementsFirst : ∀ act ∈ acts, ∀ reset d begun, .flush reset d begun ∈ act.stages →
    ∃ refused, d.statements.groups ++
        d.window.ordered.flatMap (RecordGroup.calls registry d.policy.batchSize) =
      (Stage.attempts registry (.flush reset d begun)).map Attempt.group ++ refused
  /-- Some deliveries are all that the store has executed. -/
  delivered : ∃ deliveries, Delivered registry acts b deliveries
  /-- Of a statement and a record write, the one that was submitted first is executed first. -/
  ordered : ∀ deliveries, Delivered registry acts b deliveries →
    deliveries.Pairwise (fun x y =>
      x.ticket.request.root?.isSome ≠ y.ticket.request.root?.isSome →
        x.ticket.submitted < y.ticket.submitted)

section Runs

variable [Store σ] {ctx : Context} {elsewhere : σ → σ → Prop} {policy : Policy}
  {acts : List (Act (Watched σ))} {c : Coordinator} {b : Backing (Watched σ)}

/-- A statement and a record write keep the order of their submission. -/
def KindOrder (x y : Ticket) : Prop :=
  x.request.root?.isSome ≠ y.request.root?.isSome → x.submitted < y.submitted

theorem Annals.kept_apart
    (h : Annals ctx elsewhere policy acts c b) (hpolicy : policy.flushOnMixed = true)
    (hkept : ∀ act ∈ acts, act.operation ≠ .setFlushOnMixed false) :
    c.policy.flushOnMixed = true ∧ c.Unmixed ∧
      (∀ act ∈ acts, ∀ reset d begun, .flush reset d begun ∈ act.stages → d.Unmixed) ∧
      ∃ deliveries waiting, Standing ctx.registry acts deliveries waiting c b ∧
        (ticketsOf deliveries waiting).Pairwise KindOrder := by
  induction h with
  | new b hseen =>
      exact ⟨hpolicy, Or.inl rfl, nofun, [], [], .new ctx.registry policy hseen,
        List.Pairwise.nil⟩
  | @perform acts c b operation hrun ih =>
      rw [List.forall_mem_append, List.forall_mem_singleton] at hkept
      obtain ⟨hmixed, hunmixed, hflushes, deliveries, waiting, hstanding, hordered⟩ := ih hkept.1
      obtain ⟨hafter, hbegun⟩ := unmixed_perform ctx hmixed hunmixed operation b
      obtain ⟨given, hwell⟩ := hrun.wellFormed
      obtain ⟨sent, remaining, lost, hpasses⟩ :=
        exists_passes hwell hstanding.stand operation acts.length
      refine ⟨flushOnMixed_perform hmixed hkept.2 b, hafter, ?_, _, remaining,
        hstanding.perform hwell hpasses, ?_⟩
      · rw [List.forall_mem_append, List.forall_mem_singleton]
        exact ⟨hflushes, hbegun⟩
      · rw [ticketsOf_append]
        apply hpasses.passage.pairwise hordered
        · intro other hmem entry hentry _
          rw [hentry]
          exact hstanding.submitted_lt hmem
        · -- What waits when the request is about to be buffered is of its own kind.
          intro entry _ _ other _ _ hslot hkinds
          have hadmits : (c.readied ctx entry.request b).Admits entry.request :=
            admits_of_mixes hmixed id b
          exact absurd (hadmits.kind_of_mem_line hslot).symm hkinds
  | change other _ hseen _ ih =>
      obtain ⟨hmixed, hunmixed, hflushes, deliveries, waiting, hstanding, hordered⟩ := ih hkept
      exact ⟨hmixed, hunmixed, hflushes, deliveries, waiting, hstanding.change hseen, hordered⟩

/-- While the policy does not let statements and records wait side by side, they never do, and they
are executed in the order in which they were submitted. -/
theorem statements_and_records_kept_apart
    (h : Annals ctx elsewhere policy acts c b) (hpolicy : policy.flushOnMixed = true)
    (hkept : ∀ act ∈ acts, act.operation ≠ .setFlushOnMixed false) :
    KeptApart ctx.registry acts c b := by
  obtain ⟨-, hunmixed, hflushes, deliveries, waiting, hstanding, hordered⟩ :=
    h.kept_apart hpolicy hkept
  constructor
  case unmixed => exact hunmixed
  case flushes => exact hflushes
  case statementsFirst =>
    intro act _ reset d begun _
    refine ⟨(d.calls ctx.registry).drop
      (Stage.attempts ctx.registry (.flush reset d begun)).length, ?_⟩
    rw [Stage.attempts, attempted_groups, List.take_append_drop]
    rfl
  case delivered => exact ⟨deliveries, hstanding.delivered⟩
  case ordered =>
    intro others hothers
    cases hothers.unique h.numbers hstanding.delivered
    have hdelivered := hordered.sublist (List.sublist_append_left _ _)
    exact List.pairwise_map.1 hdelivered

end Runs

/-- A record write is buffered, a statement after it, and both are flushed. -/
def alternation : List Operation :=
  [.submit (.record (insertion "a" 0)) true, .submit (.statement ⟨"x", []⟩) true, .flush false]

def alternated : List (Act (Watched Memory)) × Coordinator × Backing (Watched Memory) :=
  performActs (lettered []) alternation (.new {}) untouched

theorem statements_and_records_kept_apart_of_alternated :
    (∀ act ∈ alternated.1, act.operation ≠ .setFlushOnMixed false) ∧
      KeptApart (lettered []).registry alternated.1 alternated.2.1 alternated.2.2 ∧
      alternated.2.2.store.statements.map Statement.text =
        ["insert into a () values ()", "x"] := by
  have hnew : Annals (lettered []) (fun _ _ => False) {} [] (.new {}) untouched :=
    .new untouched rfl
  have hoperations : ∀ operation ∈ alternation, operation ≠ .setFlushOnMixed false := by
    simp [alternation]
  have hkept : ∀ act ∈ alternated.1, act.operation ≠ .setFlushOnMixed false := by
    intro act hmem
    apply hoperations
    rw [← operations_performActs (lettered []) alternation (.new {}) untouched]
    exact List.mem_map_of_mem hmem
  exact ⟨hkept, statements_and_records_kept_apart (hnew.performActs alternation) rfl hkept,
    by decide⟩

end Cascade.Coordinator
