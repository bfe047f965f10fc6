import Cascade.Proofs.Ledger

/-!
# Submissions

A request of a known root type is submitted in two steps.  First comes the flush
that may be due, then the request, which is buffered or executed at once.  While
it is buffered there are more flushes, but nothing is executed on its own, no
other request is buffered, and the policy stays as it is.
-/

namespace Cascade

/-- The root type of a request is known, if it has one. -/
def Request.Known (registry : Registry) (request : Request) : Prop :=
  ∀ root, request.root? = some root → registry.contains root = true

theorem Request.Known.exists_bind
    {registry : Registry} {request : Request} (h : request.Known registry) :
    ∃ bound, request.bind registry = .ok bound := by
  cases request with
  | record r =>
      obtain ⟨d, hd⟩ := Registry.exists_get?_of_contains (h r.root rfl)
      exact ⟨d.bind r, by simp [bind, Registry.bind, hd]⟩
  | statement s => exact ⟨s, rfl⟩

namespace Coordinator

variable {σ α β : Type}

/-- Whether something waits that a request must not wait beside. -/
def mixes (request : Request) (c : Coordinator) : Bool :=
  c.policy.flushOnMixed &&
    match request with
    | .record _ => !c.statements.isEmpty
    | .statement _ => !c.window.isDrained

/-- The coordinator in which a request is buffered, after the flush that may be due. -/
def readied [Store σ] (ctx : Context) (request : Request) (c : Coordinator) (b : Backing σ) :
    Coordinator :=
  if c.mixes request then (c.flushWith ctx false b).2.1 else c

def traceQueue [Store σ] (ctx : Context) (request : Request) (c : Coordinator) (b : Backing σ) :
    Traced σ Outcome :=
  match request with
  | .record r => traceQueueRecord ctx r c b
  | .statement s => traceQueueStatement ctx s c b

/-- Whether an operation changes the policy or hands keys over, and touches nothing else. -/
def Operation.adjusts : Operation → Bool
  | .submit _ _ | .flush _ | .clear => false
  | .setBatchSize _ | .setFetchKeys _ | .setFlushOnMixed _ | .takeKeys => true

theorem Traced.ok_of_andThen
    {t : Traced σ α} {next : α → Coordinator → Backing σ → Traced σ β} {answer : β}
    (h : (t.andThen next).2.1 = .ok answer) :
    ∃ a c b, t.2 = (.ok a, c, b) ∧ (next a c b).2.1 = .ok answer := by
  obtain ⟨stages, e | a, c, b⟩ := t
  · cases h
  · exact ⟨a, c, b, rfl, h⟩

section Steps

variable [Store σ] {ctx : Context} {request : Request}

omit [Store σ] in
theorem mem_andThen_done {t : Traced σ α} {answer : α → β} {stage : Stage σ} :
    stage ∈ (t.andThen (fun a c b => .done (answer a) c b)).1 ↔ stage ∈ t.1 := by
  obtain ⟨listed, e | a, c, b⟩ := t <;> simp [Traced.andThen, Traced.done]

theorem mem_traceFlushIf_iff
    {condition : Bool} {c : Coordinator} {b : Backing σ} {stage : Stage σ} :
    stage ∈ (traceFlushIf ctx condition c b).1 ↔ condition = true ∧ stage = .flush false c b := by
  unfold traceFlushIf
  cases condition
  · simp [Traced.done]
  · simp [mem_andThen_done, traceFlush]

theorem stages_submit (request : Request) (batch : Bool) (c : Coordinator) (b : Backing σ) :
    stages ctx (.submit request batch) c b = (traceSubmit ctx request batch c b).1 := by
  rcases h : traceSubmit ctx request batch c b with ⟨listed, e | outcome, last⟩ <;>
    simp [stages, trace, h, Traced.andThen, Traced.done]

theorem stages_flush (reset : Bool) (c : Coordinator) (b : Backing σ) :
    stages ctx (.flush reset) c b = [.flush reset c b] := by
  rcases h : c.flushWith ctx reset b with ⟨e | totals, last⟩ <;>
    simp [stages, trace, traceFlush, h, Traced.andThen, Traced.done]

theorem stages_of_adjusts (ctx : Context)
    {operation : Operation} (h : operation.adjusts = true) (c : Coordinator) (b : Backing σ) :
    stages ctx operation c b = [.adjust] ∧ (perform ctx operation c b).2.2 = b := by
  cases operation with
  | submit | flush | clear => cases h
  | setBatchSize | setFetchKeys | setFlushOnMixed | takeKeys => exact ⟨rfl, rfl⟩

theorem perform_submit (request : Request) (batch : Bool) (c : Coordinator) (b : Backing σ) :
    (perform ctx (.submit request batch) c b).2 = (traceSubmit ctx request batch c b).2.2 := by
  rw [← trace_snd]
  rcases h : traceSubmit ctx request batch c b with ⟨listed, e | outcome, last⟩ <;>
    simp [trace, h, Traced.andThen, Traced.done]

theorem answer_submit (request : Request) (batch : Bool) (c : Coordinator) (b : Backing σ) :
    (perform ctx (.submit request batch) c b).1 =
      (traceSubmit ctx request batch c b).2.1.map Reply.outcome := by
  rw [← trace_snd]
  rcases h : traceSubmit ctx request batch c b with ⟨listed, e | outcome, last⟩ <;>
    simp [trace, h, Traced.andThen, Traced.done, Except.map]

theorem ok_of_submit
    {batch : Bool} {c : Coordinator} {b : Backing σ} {reply : Reply}
    (h : (perform ctx (.submit request batch) c b).1 = .ok reply) :
    ∃ outcome, (traceSubmit ctx request batch c b).2.1 = .ok outcome := by
  rw [answer_submit] at h
  rcases hanswer : (traceSubmit ctx request batch c b).2.1 with e | outcome
  · rw [hanswer] at h
    cases h
  · exact ⟨outcome, rfl⟩

/-- After a flush that may be due the coordinator is that of the flush or the one before. -/
theorem traceFlushIf_coordinator
    (ctx : Context) (condition : Bool) (c : Coordinator) (b : Backing σ) :
    (traceFlushIf ctx condition c b).2.2.1 =
      if condition then (c.flushWith ctx false b).2.1 else c := by
  rw [traceFlushIf_snd, flushIf, flush]
  split
  · rcases c.flushWith ctx false b with ⟨e | totals, last⟩ <;> rfl
  · rfl

/-- A request of a known root type is buffered or executed, after the flush that may be due. -/
theorem traceSubmit_of_known
    (h : request.Known ctx.registry) (batch : Bool) (c : Coordinator) (b : Backing σ) :
    traceSubmit ctx request batch c b =
      (traceFlushIf ctx (!batch || c.mixes request) c b).andThen (fun _ c b =>
        if batch then traceQueue ctx request c b else traceExecute ctx request c b) := by
  cases request with
  | record r => exact if_pos (h r.root rfl)
  | statement s => rfl

/-- A request of an unknown root type is refused without any stage. -/
theorem traceSubmit_of_unknown
    (h : ¬request.Known ctx.registry) (batch : Bool) (c : Coordinator) (b : Backing σ) :
    ∃ root, traceSubmit ctx request batch c b = ([], (.error (.unknownRoot root), c, b)) := by
  cases request with
  | record r =>
      refine ⟨r.root, if_neg ?_⟩
      intro hroot
      apply h
      intro root heq
      cases heq
      exact hroot
  | statement s => exact absurd nofun h

theorem perform_submit_of_unknown
    (h : ¬request.Known ctx.registry) (batch : Bool) (c : Coordinator) (b : Backing σ) :
    ∃ root, perform ctx (.submit request batch) c b = (.error (.unknownRoot root), c, b) := by
  obtain ⟨root, hrefused⟩ := traceSubmit_of_unknown h batch c b
  refine ⟨root, Prod.ext ?_ ?_⟩
  · rw [answer_submit, hrefused]
    rfl
  · rw [perform_submit, hrefused]

theorem leads_traceQueue
    (h : request.Known ctx.registry) (given : Bool) (c : Coordinator) (b : Backing σ) :
    (traceQueue ctx request c b).Leads ctx ⟨given, c, b⟩ := by
  cases request with
  | record r => exact leads_traceQueueRecord given (h r.root rfl) c b
  | statement s => exact leads_traceQueueStatement ctx given s c b

theorem exists_queued
    {c : Coordinator} {b : Backing σ} {outcome : Outcome}
    (h : (traceQueue ctx request c b).2.1 = .ok outcome) : ∃ id, outcome = .queued id := by
  cases request with
  | record r =>
      obtain ⟨_, n, b₁, -, h⟩ := Traced.ok_of_andThen h
      obtain ⟨_, queued, b₂, -, h⟩ := Traced.ok_of_andThen h
      obtain ⟨_, c', b₃, -, h⟩ := Traced.ok_of_andThen h
      cases h
      exact ⟨_, rfl⟩
  | statement s =>
      obtain ⟨_, n, b₁, -, h⟩ := Traced.ok_of_andThen h
      obtain ⟨_, queued, b₂, -, h⟩ := Traced.ok_of_andThen h
      obtain ⟨_, c', b₃, -, h⟩ := Traced.ok_of_andThen h
      cases h
      exact ⟨_, rfl⟩

theorem files_traceQueue (request : Request) (c : Coordinator) (b : Backing σ) :
    (traceQueue ctx request c b).Files request := by
  cases request with
  | record r => exact files_traceQueueRecord ctx r c b
  | statement s => exact files_traceQueueStatement ctx s c b

end Steps

/-! ## The stages in which a request is buffered -/

/-- A stage that can be met while a request is buffered. -/
inductive Stage.Buffers (request : Request) : Stage σ → Prop
  | flush (reset : Bool) (c : Coordinator) (b : Backing σ) : Buffers request (.flush reset c b)
  | number : Buffers request .number
  | queue (id : RequestId) : Buffers request (.queue id request)
  | force (root : RootType) : Buffers request (.force root)

/-- What holds of all stages of a step and of all stages of what follows holds of all stages. -/
theorem Traced.forall_stages_andThen
    {P : Stage σ → Prop} {t : Traced σ α} {next : α → Coordinator → Backing σ → Traced σ β}
    (h : ∀ stage ∈ t.1, P stage) (hnext : ∀ a c b, ∀ stage ∈ (next a c b).1, P stage) :
    ∀ stage ∈ (t.andThen next).1, P stage := by
  obtain ⟨stages, e | a, c, b⟩ := t
  · exact h
  · intro stage hmem
    rcases List.mem_append.1 hmem with hmem | hmem
    · exact h stage hmem
    · exact hnext a c b stage hmem

/-- Every stage of a step can be met while a request is buffered. -/
def Traced.Buffers (request : Request) (t : Traced σ α) : Prop :=
  ∀ stage ∈ t.1, stage.Buffers request

section Buffers

variable {request : Request}

theorem Traced.Buffers.andThen
    {t : Traced σ α} {next : α → Coordinator → Backing σ → Traced σ β}
    (h : t.Buffers request) (hnext : ∀ a c b, (next a c b).Buffers request) :
    (t.andThen next).Buffers request :=
  Traced.forall_stages_andThen h hnext

theorem buffers_done (request : Request) (a : α) (c : Coordinator) (b : Backing σ) :
    (Traced.done a c b).Buffers request :=
  List.forall_mem_nil _

theorem buffers_stage
    {stage : Stage σ} (h : stage.Buffers request) (c : Coordinator) (b : Backing σ) :
    (Traced.stage stage c b).Buffers request :=
  List.forall_mem_singleton.2 h

end Buffers

section Buffering

variable [Store σ] (ctx : Context) (request : Request)

theorem buffers_traceFlush (reset : Bool) (c : Coordinator) (b : Backing σ) :
    (traceFlush ctx reset c b).Buffers request :=
  List.forall_mem_singleton.2 (.flush reset c b)

theorem buffers_traceFlushIf (condition : Bool) (c : Coordinator) (b : Backing σ) :
    (traceFlushIf ctx condition c b).Buffers request := by
  unfold traceFlushIf
  split
  · apply (buffers_traceFlush ctx request false c b).andThen
    intro _ c b
    exact buffers_done request () c b
  · exact buffers_done request () c b

theorem buffers_tracePlaceGroup
    (root : RootType) (relative : Int) (c : Coordinator) (b : Backing σ) :
    (tracePlaceGroup ctx root relative c b).Buffers request := by
  unfold tracePlaceGroup
  split
  · exact buffers_done request _ c b
  · apply (buffers_stage (.force root) c _).andThen
    intro _ c b
    apply (buffers_traceFlush ctx request true c b).andThen
    intro _ c b
    exact buffers_done request _ c b

theorem buffers_traceFile (record : Record) (c : Coordinator) (b : Backing σ) :
    (traceFile ctx record c b).Buffers (.record record) := by
  unfold traceFile
  split
  · exact buffers_stage (.queue c.latest) _ _
  · apply (buffers_tracePlaceGroup ctx _ _ _ c b).andThen
    intro depth c b
    exact buffers_stage (.queue c.latest) _ _

theorem buffers_traceQueue (c : Coordinator) (b : Backing σ) :
    (traceQueue ctx request c b).Buffers request := by
  cases request with
  | record r =>
      apply (buffers_stage .number c.numbered b).andThen
      intro _ n b
      apply (buffers_traceFile ctx r n b).andThen
      intro _ queued b
      apply (buffers_traceFlushIf ctx _ _ queued b).andThen
      intro _ c b
      exact buffers_done _ _ c b
  | statement s =>
      apply (buffers_stage .number c.numbered b).andThen
      intro _ n b
      apply (buffers_stage (.queue n.latest) _ _).andThen
      intro _ queued b
      apply (buffers_traceFlushIf ctx _ _ queued b).andThen
      intro _ c b
      exact buffers_done _ _ c b

/-- Every stage of a request that is to be buffered serves that. -/
theorem buffers_traceSubmit (c : Coordinator) (b : Backing σ) :
    (traceSubmit ctx request true c b).Buffers request := by
  by_cases hknown : request.Known ctx.registry
  · rw [traceSubmit_of_known hknown]
    apply (buffers_traceFlushIf ctx request _ c b).andThen
    intro _ c b
    exact buffers_traceQueue ctx request c b
  · obtain ⟨root, hrefused⟩ := traceSubmit_of_unknown hknown true c b
    rw [hrefused]
    exact List.forall_mem_nil _

/-- A request that is submitted is buffered or executed at once, and nothing else happens. -/
theorem stages_traceSubmit (batch : Bool) (c : Coordinator) (b : Backing σ) :
    ∀ stage ∈ (traceSubmit ctx request batch c b).1,
      stage.Buffers request ∨ ∃ fetch b, stage = .execute request fetch b := by
  cases batch with
  | true => exact fun stage hmem => Or.inl (buffers_traceSubmit ctx request c b stage hmem)
  | false =>
      by_cases hknown : request.Known ctx.registry
      · rw [traceSubmit_of_known hknown]
        apply Traced.forall_stages_andThen
        · exact fun stage hmem => Or.inl (buffers_traceFlushIf ctx request _ c b stage hmem)
        · intro _ c b
          exact List.forall_mem_singleton.2 (Or.inr ⟨_, _, rfl⟩)
      · obtain ⟨root, hrefused⟩ := traceSubmit_of_unknown hknown false c b
        rw [hrefused]
        exact List.forall_mem_nil _

/-- The policy is not changed and no keys are handed over while a request is submitted. -/
theorem adjust_not_mem_traceSubmit (batch : Bool) (c : Coordinator) (b : Backing σ) :
    Stage.adjust ∉ (traceSubmit ctx request batch c b).1 := by
  intro hmem
  rcases stages_traceSubmit ctx request batch c b _ hmem with hbuffers | ⟨fetch, b', heq⟩
  · cases hbuffers
  · cases heq

theorem clear_not_mem_traceSubmit (batch : Bool) (c d : Coordinator) (b : Backing σ) :
    Stage.clear d ∉ (traceSubmit ctx request batch c b).1 := by
  intro hmem
  rcases stages_traceSubmit ctx request batch c b _ hmem with hbuffers | ⟨fetch, b', heq⟩
  · cases hbuffers
  · cases heq

theorem adjust_not_mem_stages
    {operation : Operation} (h : operation.adjusts = false) (c : Coordinator) (b : Backing σ) :
    Stage.adjust ∉ stages ctx operation c b := by
  cases operation with
  | submit request batch =>
      rw [stages_submit]
      exact adjust_not_mem_traceSubmit ctx request batch c b
  | flush reset =>
      rw [stages_flush]
      exact fun hmem => nomatch List.mem_singleton.1 hmem
  | clear => exact fun hmem => nomatch List.mem_singleton.1 hmem
  | setBatchSize | setFetchKeys | setFlushOnMixed | takeKeys => cases h

theorem policy_perform
    {operation : Operation} (h : operation.adjusts = false) (c : Coordinator) (b : Backing σ) :
    (perform ctx operation c b).2.1.policy = c.policy := by
  obtain ⟨last, hpath⟩ := path_stages ctx false operation c b
  exact hpath.policy (adjust_not_mem_stages ctx h c b)

theorem clear_not_mem_stages
    {operation : Operation} (hne : operation ≠ .clear) (c d : Coordinator) (b : Backing σ) :
    Stage.clear d ∉ stages ctx operation c b := by
  cases operation with
  | submit request batch =>
      rw [stages_submit]
      exact clear_not_mem_traceSubmit ctx request batch c d b
  | flush reset =>
      rw [stages_flush]
      exact fun hmem => nomatch List.mem_singleton.1 hmem
  | clear => exact absurd rfl hne
  | setBatchSize | setFetchKeys | setFlushOnMixed | takeKeys =>
      exact fun hmem => nomatch List.mem_singleton.1 hmem

end Buffering

/-! ## A flush is to blame -/

/-- A step fails only through one of its flushes. -/
def Traced.Blames [Store σ] (ctx : Context) (t : Traced σ α) : Prop :=
  ∀ e, t.2.1 = .error e →
    ∃ reset c b, .flush reset c b ∈ t.1 ∧ (c.flushWith ctx reset b).1 = .error e

section Blame

variable [Store σ] {ctx : Context}

theorem Traced.Blames.andThen
    {t : Traced σ α} {next : α → Coordinator → Backing σ → Traced σ β}
    (h : t.Blames ctx) (hnext : ∀ a c b, (next a c b).Blames ctx) :
    (t.andThen next).Blames ctx := by
  intro e hfail
  obtain ⟨stages, e' | a, c, b⟩ := t
  · exact h e (by simpa [Traced.andThen] using hfail)
  · obtain ⟨reset, d, begun, hmem, hflush⟩ := hnext a c b e hfail
    exact ⟨reset, d, begun, List.mem_append_right _ hmem, hflush⟩

theorem Traced.Blames.of_ok {t : Traced σ α} {a : α} (h : t.2.1 = .ok a) : t.Blames ctx := by
  intro e hfail
  cases h.symm.trans hfail

variable (ctx)

theorem blames_traceFlush (reset : Bool) (c : Coordinator) (b : Backing σ) :
    (traceFlush ctx reset c b).Blames ctx :=
  fun _ hfail => ⟨reset, c, b, List.mem_singleton_self _, hfail⟩

theorem blames_traceFlushIf (condition : Bool) (c : Coordinator) (b : Backing σ) :
    (traceFlushIf ctx condition c b).Blames ctx := by
  unfold traceFlushIf
  split
  · exact (blames_traceFlush ctx false c b).andThen (fun _ _ _ => .of_ok rfl)
  · exact .of_ok rfl

theorem blames_tracePlaceGroup
    (root : RootType) (relative : Int) (c : Coordinator) (b : Backing σ) :
    (tracePlaceGroup ctx root relative c b).Blames ctx := by
  unfold tracePlaceGroup
  split
  · exact .of_ok rfl
  · apply Traced.Blames.andThen (.of_ok rfl)
    intro _ c b
    exact (blames_traceFlush ctx true c b).andThen (fun _ _ _ => .of_ok rfl)

theorem blames_traceFile (record : Record) (c : Coordinator) (b : Backing σ) :
    (traceFile ctx record c b).Blames ctx := by
  unfold traceFile
  split
  · exact .of_ok rfl
  · exact (blames_tracePlaceGroup ctx _ _ c b).andThen (fun _ _ _ => .of_ok rfl)

/-- A request fails to be buffered only through a flush. -/
theorem blames_traceQueue (request : Request) (c : Coordinator) (b : Backing σ) :
    (traceQueue ctx request c b).Blames ctx := by
  cases request with
  | record r =>
      apply Traced.Blames.andThen (.of_ok rfl)
      intro _ n b
      apply (blames_traceFile ctx r n b).andThen
      intro _ queued b
      exact (blames_traceFlushIf ctx _ queued b).andThen (fun _ _ _ => .of_ok rfl)
  | statement s =>
      apply Traced.Blames.andThen (.of_ok rfl)
      intro _ n b
      apply Traced.Blames.andThen (.of_ok rfl)
      intro _ queued b
      exact (blames_traceFlushIf ctx _ queued b).andThen (fun _ _ _ => .of_ok rfl)

end Blame

end Coordinator

end Cascade
