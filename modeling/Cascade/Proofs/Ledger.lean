import Cascade.Proofs.Ordering

/-!
# The ledger of a coordinator

A stage accepts requests, attempts batch calls, or drops what waits.  Every
move balances: what waited before it and what it accepts is what waits after
it, what its calls hold and what it drops.
-/

namespace Cascade

/-- The parcel of a request that is buffered under a number, if its root type is known. -/
def Request.parcel? (registry : Registry) (id : RequestId) : Request → Option Parcel
  | .record r => registry.parcel? (id, r)
  | .statement s => some (s.parcel (some id))

/-- A request that has a parcel binds to the statement that the parcel carries. -/
theorem Request.bind_of_parcel?
    {registry : Registry} {id : RequestId} {request : Request} {parcel : Parcel}
    (h : request.parcel? registry id = some parcel) :
    ∃ bound, request.bind registry = .ok bound ∧ parcel = bound.parcel (some id) := by
  cases request with
  | record record =>
      obtain ⟨d, hget, rfl⟩ := Option.map_eq_some_iff.1 h
      exact ⟨d.bind record, by simp [bind, Registry.bind, hget], rfl⟩
  | statement s =>
      cases h
      exact ⟨s, rfl, rfl⟩

def batches (seen : List Seen) : List Seen :=
  seen.filter (fun sight => sight.call.isBatch)

@[simp] theorem batches_append (first second : List Seen) :
    batches (first ++ second) = batches first ++ batches second :=
  List.filter_append _ _

/-- The attempted groups are the first ones, and all of them if no call was refused. -/
theorem attempted_groups {σ : Type} [Store σ] (fetch : Bool) (groups : List StatementGroup)
    (store : σ) :
    (attempted fetch groups store).map Attempt.group =
      groups.take (attempted fetch groups store).length := by
  induction groups generalizing store with
  | nil => rfl
  | cons group rest ih =>
      rcases hcall : Store.executeBatch group.text group.paramSets (fetch && group.isInsert)
        store with ⟨e | answer, after⟩
      · simp [attempted, hcall]
      · simp [attempted, hcall, ih, StatementGroup.accepted]

theorem group_mem_of_attempted {σ : Type} [Store σ] {fetch : Bool} {groups : List StatementGroup}
    {store : σ} {attempt : Attempt} (h : attempt ∈ attempted fetch groups store) :
    attempt.group ∈ groups := by
  have hgroup : attempt.group ∈ (attempted fetch groups store).map Attempt.group :=
    List.mem_map_of_mem h
  rw [attempted_groups] at hgroup
  exact List.mem_of_mem_take hgroup

theorem batches_attempts (fetch : Bool) (attempts : List Attempt) :
    batches (attempts.map (Attempt.seen fetch)) = attempts.map (Attempt.seen fetch) := by
  rw [batches, List.filter_eq_self]
  intro sight hmem
  obtain ⟨attempt, -, rfl⟩ := List.mem_map.1 hmem
  rfl

namespace Coordinator

variable {σ : Type}

namespace Stage

/-- The requests that a stage puts into a buffer. -/
def accepted : Stage σ → List (RequestId × Request)
  | .queue id request => [(id, request)]
  | _ => []

/-- The batch calls that a stage makes. -/
def attempts [Store σ] (registry : Registry) : Stage σ → List Attempt
  | .flush _ c b => attempted c.policy.fetchKeys (c.calls registry) b.store
  | _ => []

def calls [Store σ] (registry : Registry) : Stage σ → List Seen
  | .flush reset c b =>
      (attempts registry (.flush reset c b)).map (Attempt.seen c.policy.fetchKeys)
  | _ => []

/-- What a stage drops without sending it. -/
def dropped [Store σ] (registry : Registry) : Stage σ → List Parcel
  | .flush reset c b =>
      ((c.calls registry).drop (attempts registry (.flush reset c b)).length).flatMap
        StatementGroup.parcels
  | .clear c => c.parcels registry
  | _ => []

end Stage

def accepted (history : List (Stage σ)) : List (RequestId × Request) :=
  history.flatMap Stage.accepted

/-- The parcels of those requests. -/
def acceptedParcels (registry : Registry) (history : List (Stage σ)) : List Parcel :=
  (accepted history).filterMap (fun entry => entry.2.parcel? registry entry.1)

def attempts [Store σ] (registry : Registry) (history : List (Stage σ)) : List Attempt :=
  history.flatMap (Stage.attempts registry)

/-- The parcels that these calls hold, call by call. -/
def sent [Store σ] (registry : Registry) (history : List (Stage σ)) : List (List Parcel) :=
  (attempts registry history).map (fun attempt => attempt.group.parcels)

/-- The parcels that the stages of a history drop. -/
def dropped [Store σ] (registry : Registry) (history : List (Stage σ)) : List Parcel :=
  history.flatMap (Stage.dropped registry)

/-! ## What waits -/

section Waiting

variable (registry : Registry)

theorem parcels_perm (c : Coordinator) :
    (c.parcels registry).Perm
      (c.statements.parcels ++ c.window.values.flatMap (RecordGroup.parcels registry)) :=
  ((sortBy_perm _ _).flatMap_right _).append_left _

theorem parcels_append (id : RequestId) (record : Record) (group : RecordGroup) :
    (group.append id record).parcels registry =
      group.parcels registry ++ (registry.parcel? (id, record)).toList := by
  rcases h : registry.parcel? (id, record) with _ | parcel <;>
    simp [RecordGroup.parcels, RecordGroup.append, h]

theorem parcels_withStatement (c : Coordinator) (statement : Statement) :
    ((c.withStatement statement).parcels registry).Perm
      (c.parcels registry ++ [statement.parcel (some c.latest)]) := by
  have hstatements := StatementBatch.parcels_append_perm statement (some c.latest) c.statements
  refine (hstatements.append_right _).trans ?_
  rw [parcels, List.append_assoc, List.append_assoc]
  exact List.perm_append_comm.append_left _

theorem parcels_withRecord_member
    (c : Coordinator) {record : Record} {group : RecordGroup}
    (hget : c.window.get? record.root = some group) :
    ((c.withRecord record group).parcels registry).Perm
      (c.parcels registry ++ (registry.parcel? (c.latest, record)).toList) := by
  obtain ⟨front, back, hvalues, hinsert⟩ := Dictionary.values_insert_of_get?_eq_some hget
  have hvalues' : (c.withRecord record group).window.values =
      front ++ group.append c.latest record :: back :=
    hinsert _
  refine (parcels_perm registry _).trans (List.Perm.trans ?_
    ((parcels_perm registry c).append_right _).symm)
  rw [hvalues, hvalues', List.append_assoc]
  apply List.Perm.append_left
  simp only [List.flatMap_append, List.flatMap_cons, parcels_append, List.append_assoc]
  exact (List.perm_append_comm.append_left _).append_left _

theorem parcels_withRecord_entrant
    (c : Coordinator) {record : Record} (hget : c.window.get? record.root = none) (depth : Int) :
    (((c.withOpened depth).withRecord record (.new record.root depth c.opened)).parcels
        registry).Perm
      (c.parcels registry ++ (registry.parcel? (c.latest, record)).toList) := by
  have hvalues := Dictionary.values_insert_perm_of_get?_eq_none hget
    ((RecordGroup.new record.root depth c.opened).append c.latest record)
  refine (parcels_perm registry _).trans (List.Perm.trans ?_
    ((parcels_perm registry c).append_right _).symm)
  rw [List.append_assoc]
  apply List.Perm.append_left
  refine (hvalues.flatMap_right _).trans ?_
  rw [List.flatMap_cons, parcels_append]
  exact List.perm_append_comm

theorem parcels_eq_nil
    {c : Coordinator} (hstatements : c.statements = .empty)
    (hwindow : ∀ group ∈ c.window.values, group.pending = []) :
    c.parcels registry = [] := by
  have hnone : c.window.ordered.flatMap (RecordGroup.parcels registry) = [] := by
    rw [List.flatMap_eq_nil_iff]
    intro group hmem
    rw [RecordGroup.parcels, hwindow group (mem_ordered_iff.1 hmem)]
    rfl
  rw [parcels, hstatements, hnone]
  rfl

theorem parcels_flushWith [Store σ]
    (ctx : Context) (reset : Bool) (c : Coordinator) (b : Backing σ) :
    (c.flushWith ctx reset b).2.1.parcels registry = [] := by
  rw [coordinator_flushWith]
  split
  · exact parcels_eq_nil registry rfl (window_settled_pending c reset _)
  · exact parcels_eq_nil registry rfl (by intro group hmem; cases hmem)

theorem length_parcels_group
    {group : RecordGroup} (hknown : ∀ write ∈ group.pending, registry.contains write.2.root) :
    (group.parcels registry).length = group.size := by
  obtain ⟨_, _, _, pending⟩ := group
  simp only [RecordGroup.parcels, RecordGroup.size] at hknown ⊢
  induction pending with
  | nil => rfl
  | cons write rest ih =>
      obtain ⟨statement, -, hparcel⟩ :=
        Registry.bind_of_contains (hknown write List.mem_cons_self)
      rw [List.filterMap_cons_some hparcel, List.length_cons, List.length_cons,
        ih (fun other hmem => hknown other (List.mem_cons_of_mem _ hmem))]

theorem length_parcels
    {c : Coordinator} (h : c.Sendable registry) : (c.parcels registry).length = c.pending := by
  have hgroups : ∀ groups : List RecordGroup, (∀ group ∈ groups, group ∈ c.window.values) →
      (groups.flatMap (RecordGroup.parcels registry)).length =
        sumOf (groups.map RecordGroup.size) := by
    intro groups hsub
    induction groups with
    | nil => rfl
    | cons group rest ih =>
        rw [List.flatMap_cons, List.length_append, List.map_cons, sumOf,
          length_parcels_group registry (h.known group (hsub group List.mem_cons_self)),
          ih (fun other hmem => hsub other (List.mem_cons_of_mem _ hmem))]
  rw [(parcels_perm registry c).length_eq, List.length_append, StatementBatch.length_parcels,
    hgroups _ (fun _ hmem => hmem)]
  rfl

end Waiting

/-! ## Moves balance -/

section Balance

theorem acceptedParcels_record (registry : Registry) (id : RequestId) (record : Record) :
    acceptedParcels registry [(.queue id (.record record) : Stage σ)] =
      (registry.parcel? (id, record)).toList := by
  rcases h : registry.parcel? (id, record) with _ | parcel <;>
    simp [acceptedParcels, accepted, Stage.accepted, Request.parcel?, h]

variable [Store σ] {ctx : Context}

theorem attempts_append_dropped
    {c : Coordinator} (h : c.Sendable ctx.registry) (reset : Bool) (b : Backing σ) :
    ((Stage.attempts ctx.registry (.flush reset c b)).flatMap
        (fun attempt => attempt.group.parcels)) ++
      Stage.dropped ctx.registry (.flush reset c b) = c.parcels ctx.registry := by
  have hgroups := attempted_groups c.policy.fetchKeys (c.calls ctx.registry) b.store
  rw [← h.parcels_calls]
  conv_rhs => rw [← List.take_append_drop (Stage.attempts ctx.registry (.flush reset c b)).length
    (c.calls ctx.registry), List.flatMap_append]
  congr 1
  change _ = ((c.calls ctx.registry).take (attempted _ _ _).length).flatMap _
  rw [← hgroups, List.flatMap_map]
  rfl

/-- What waited before a move and what it accepts is what waits after it, what its calls hold and
what it drops. -/
theorem Move.balance
    {stage : Stage σ} {m next : Moment σ} (hmove : Move ctx stage m next)
    (h : m.WellFormed ctx.registry) :
    (m.coordinator.parcels ctx.registry ++ acceptedParcels ctx.registry [stage]).Perm
      (next.coordinator.parcels ctx.registry ++
        ((sent ctx.registry [stage]).flatten ++ dropped ctx.registry [stage])) := by
  have hsilent : ∀ {c c' : Coordinator}, c'.parcels ctx.registry = c.parcels ctx.registry →
      (c.parcels ctx.registry ++ []).Perm (c'.parcels ctx.registry ++ ([] ++ [])) := by
    intro c c' hsame
    rw [hsame]
    exact List.Perm.refl _
  cases hmove with
  | flush given reset c b =>
      obtain ⟨n, -, hwell⟩ := h
      have hcalls := attempts_append_dropped hwell.sendable reset b
      have hsent : (sent ctx.registry [.flush reset c b]).flatten =
          (Stage.attempts ctx.registry (.flush reset c b)).flatMap
            (fun attempt => attempt.group.parcels) := by
        simp [sent, attempts, List.flatMap_def]
      have hdropped : dropped ctx.registry [.flush reset c b] =
          Stage.dropped ctx.registry (.flush reset c b) := by
        simp [dropped]
      rw [hsent, hdropped, hcalls, parcels_flushWith, List.nil_append]
      exact List.Perm.of_eq (List.append_nil _)
  | number given c b => exact hsilent rfl
  | statement s c b =>
      refine (parcels_withStatement ctx.registry c s).symm.trans ?_
      exact List.Perm.of_eq (List.append_nil _).symm
  | member record group c b hknown hget =>
      rw [acceptedParcels_record]
      refine (parcels_withRecord_member ctx.registry c hget).symm.trans ?_
      exact List.Perm.of_eq (List.append_nil _).symm
  | entrant record depth c b hknown hget _ =>
      rw [acceptedParcels_record]
      refine (parcels_withRecord_entrant ctx.registry c hget depth).symm.trans ?_
      exact List.Perm.of_eq (List.append_nil _).symm
  | force given root c b => exact hsilent rfl
  | execute given request c b => exact hsilent rfl
  | clear given c b =>
      have hdropped : dropped ctx.registry [(.clear c : Stage σ)] = c.parcels ctx.registry := by
        simp [dropped, Stage.dropped]
      have hnothing : (c.clear ctx b).1.parcels ctx.registry = [] :=
        parcels_eq_nil ctx.registry rfl (by intro group hmem; cases hmem)
      rw [hdropped, hnothing]
      exact List.Perm.of_eq (List.append_nil _)
  | adjust given policy keys c b => exact hsilent rfl

theorem batches_executeNow
    (registry : Registry) (fetch : Bool) (request : Request) (b : Backing (Watched σ)) :
    batches (b.executeNow registry fetch request).2.store.seen = batches b.store.seen := by
  unfold Backing.executeNow Request.execute
  rcases request.bind registry with e | bound
  · rfl
  · rcases hcall : Store.execute bound (fetch && bound.isInsert) b.store.behind with
      ⟨e | answer, after⟩
    all_goals
      simp [Store.execute, hcall, batches, Backing.note, Backing.count, Call.isBatch,
        Seen.ofAnswer]

theorem Move.called
    {stage : Stage (Watched σ)} {m next : Moment (Watched σ)} (hmove : Move ctx stage m next)
    (h : m.WellFormed ctx.registry) :
    batches next.backing.store.seen =
      batches m.backing.store.seen ++ stage.calls ctx.registry := by
  cases hmove with
  | flush given reset c b =>
      obtain ⟨n, -, hwell⟩ := h
      rw [flushWith_seen ctx reset hwell.sendable, batches_append, batches_attempts]
      rfl
  | execute given request c b =>
      refine (batches_executeNow ctx.registry c.policy.fetchKeys request b).trans ?_
      exact (List.append_nil _).symm
  | number | statement | member | entrant | force | clear | adjust =>
      exact (List.append_nil _).symm

/-- The batch calls of a history execute the statements of the parcels that were sent. -/
theorem statements_calls_history (registry : Registry) (history : List (Stage σ)) :
    (history.flatMap (Stage.calls registry)).map (fun sight => sight.call.statements) =
      (sent registry history).map (List.map Parcel.statement) := by
  induction history with
  | nil => rfl
  | cons stage rest ih =>
      simp only [sent, attempts, List.flatMap_cons, List.map_append] at ih ⊢
      rw [ih]
      congr 1
      cases stage with
      | flush reset c b =>
          simp only [Stage.calls, List.map_map]
          apply List.map_congr_left
          intro attempt _
          exact attempt.group.statements_call c.policy.fetchKeys
      | number | queue | force | execute | clear | adjust => rfl

end Balance

/-! ## What an operation accepts -/

section Acceptance

variable {α β : Type}

@[simp] theorem accepted_append (first second : List (Stage σ)) :
    accepted (first ++ second) = accepted first ++ accepted second :=
  List.flatMap_append

@[simp] theorem accepted_singleton (stage : Stage σ) : accepted [stage] = stage.accepted :=
  List.append_nil _

theorem accepted_andThen
    {t : Traced σ α} {next : α → Coordinator → Backing σ → Traced σ β}
    (h : accepted t.1 = []) (hnext : ∀ a c b, accepted (next a c b).1 = []) :
    accepted (t.andThen next).1 = [] := by
  obtain ⟨stages, e | a, c, b⟩ := t
  · exact h
  · simp only at h
    simp [Traced.andThen, h, hnext]

/-- A step accepts nothing and answers no number, or it accepts the request under the one number
that it may answer. -/
def Traced.Files (request : Request) (t : Traced σ Outcome) : Prop :=
  (accepted t.1 = [] ∧ ∀ id, t.2.1 ≠ .ok (.queued id)) ∨
    ∃ id, accepted t.1 = [(id, request)] ∧ ∀ other, t.2.1 = .ok (.queued other) → other = id

theorem Traced.Files.andThen
    {request : Request} {t : Traced σ α} {next : α → Coordinator → Backing σ → Traced σ Outcome}
    (h : accepted t.1 = []) (hnext : ∀ a c b, (next a c b).Files request) :
    (t.andThen next).Files request := by
  obtain ⟨stages, e | a, c, b⟩ := t
  · exact Or.inl ⟨h, nofun⟩
  · simp only at h
    simpa [Traced.Files, Traced.andThen, h] using hnext a c b

/-- After a request was filed, what follows accepts nothing and may answer the number. -/
theorem Traced.Files.of_filed
    {request : Request} {id : RequestId} {t : Traced σ α}
    {next : α → Coordinator → Backing σ → Traced σ Outcome}
    (h : accepted t.1 = [(id, request)]) (hnext : ∀ a c b, accepted (next a c b).1 = [])
    (hid : ∀ a c b other, (next a c b).2.1 = .ok (.queued other) → other = id) :
    (t.andThen next).Files request := by
  obtain ⟨stages, e | a, c, b⟩ := t
  · exact Or.inr ⟨id, h, nofun⟩
  · refine Or.inr ⟨id, ?_, hid a c b⟩
    simp only at h
    simp [Traced.andThen, h, hnext]

variable [Store σ] (ctx : Context)

theorem accepted_traceFlushIf (condition : Bool) (c : Coordinator) (b : Backing σ) :
    accepted (traceFlushIf ctx condition c b).1 = [] := by
  unfold traceFlushIf
  split
  · exact accepted_andThen rfl (fun _ _ _ => rfl)
  · rfl

theorem files_of_filed
    {request : Request} {id : RequestId} {t : Traced σ Unit} (h : accepted t.1 = [(id, request)])
    (condition : Coordinator → Bool) :
    (t.andThen (fun _ queued b => (traceFlushIf ctx (condition queued) queued b).andThen
      (fun _ c b => .done (.queued id) c b))).Files request := by
  apply Traced.Files.of_filed h
  · intro _ c b
    exact accepted_andThen (accepted_traceFlushIf ctx _ c b) (fun _ _ _ => rfl)
  · intro _ c b other hother
    rcases hflush : traceFlushIf ctx (condition c) c b with ⟨stages, e | _, after⟩
    all_goals
      rw [hflush] at hother
      cases hother
    rfl

theorem execute_ne_queued
    (registry : Registry) (fetch : Bool) (request : Request) (store : σ) (id : RequestId) :
    (request.execute registry fetch store).1 ≠ .ok (.queued id) := by
  unfold Request.execute
  rcases request.bind registry with e | bound
  · exact nofun
  · dsimp only
    rcases Store.execute bound (fetch && bound.isInsert) store with ⟨e | answer, after⟩
    · exact nofun
    · exact nofun

theorem files_traceExecute (request : Request) (c : Coordinator) (b : Backing σ) :
    (traceExecute ctx request c b).Files request := by
  refine Or.inl ⟨rfl, ?_⟩
  intro id
  have hnot := execute_ne_queued ctx.registry c.policy.fetchKeys request b.store id
  simp only [traceExecute, executeNow, Backing.executeNow]
  rcases hresult : request.execute ctx.registry c.policy.fetchKeys b.store with
    ⟨e | outcome, after⟩
  · intro hqueued
    cases hqueued
  · rw [hresult] at hnot
    exact hnot

theorem files_traceQueueStatement (statement : Statement) (c : Coordinator) (b : Backing σ) :
    (traceQueueStatement ctx statement c b).Files (.statement statement) := by
  apply Traced.Files.andThen rfl
  intro _ n b
  exact files_of_filed ctx rfl _

theorem files_traceSubmitStatement
    (statement : Statement) (batch : Bool) (c : Coordinator) (b : Backing σ) :
    (traceSubmitStatement ctx statement batch c b).Files (.statement statement) := by
  apply Traced.Files.andThen (accepted_traceFlushIf ctx _ c b)
  intro _ c b
  cases batch
  · exact files_traceExecute ctx _ c b
  · exact files_traceQueueStatement ctx statement c b

theorem accepted_traceFile (record : Record) (c : Coordinator) (b : Backing σ) :
    accepted (traceFile ctx record c b).1 = [(c.latest, .record record)] ∨
      accepted (traceFile ctx record c b).1 = [] ∧
        ∃ e, (traceFile ctx record c b).2.1 = .error e := by
  unfold traceFile
  split
  · exact Or.inl rfl
  · have hplace : accepted (tracePlaceGroup ctx record.root record.depth c b).1 = [] := by
      unfold tracePlaceGroup
      split
      · rfl
      · exact accepted_andThen rfl (fun _ c b => accepted_andThen rfl (fun _ _ _ => rfl))
    have hlatest := latest_placeGroup ctx record.root record.depth c b
    rw [← tracePlaceGroup_snd] at hlatest
    rcases htrace : tracePlaceGroup ctx record.root record.depth c b with
      ⟨stages, e | depth, placed, after⟩
    all_goals
      rw [htrace] at hplace hlatest
      simp only at hplace hlatest
    · exact Or.inr ⟨hplace, e, rfl⟩
    · left
      simp [Traced.andThen, Traced.stage, hplace, hlatest, Stage.accepted]

theorem files_traceQueueRecord (record : Record) (c : Coordinator) (b : Backing σ) :
    (traceQueueRecord ctx record c b).Files (.record record) := by
  apply Traced.Files.andThen rfl
  intro _ n b
  rcases accepted_traceFile ctx record n b with hfiled | ⟨hnone, e, hfail⟩
  · exact files_of_filed ctx hfiled _
  · rcases htrace : traceFile ctx record n b with ⟨stages, e | _, after⟩
    all_goals
      rw [htrace] at hnone hfail
      cases hfail
    exact Or.inl ⟨hnone, nofun⟩

theorem files_traceSubmitRecord
    (record : Record) (batch : Bool) (c : Coordinator) (b : Backing σ) :
    (traceSubmitRecord ctx record batch c b).Files (.record record) := by
  unfold traceSubmitRecord
  split
  · apply Traced.Files.andThen (accepted_traceFlushIf ctx _ c b)
    intro _ c b
    cases batch
    · exact files_traceExecute ctx _ c b
    · exact files_traceQueueRecord ctx record c b
  · exact Or.inl ⟨rfl, nofun⟩

/-- The number that an operation answers is the one under which it has put its request into a
buffer. -/
theorem accepted_of_queued
    {operation : Operation} {c : Coordinator} {b : Backing σ} {id : RequestId}
    (h : (perform ctx operation c b).1 = .ok (.outcome (.queued id))) :
    ∃ request batch, operation = .submit request batch ∧
      accepted (stages ctx operation c b) = [(id, request)] := by
  rw [← trace_snd] at h
  cases operation with
  | submit request batch =>
      have hfiles : (traceSubmit ctx request batch c b).Files request := by
        cases request with
        | record record => exact files_traceSubmitRecord ctx record batch c b
        | statement statement => exact files_traceSubmitStatement ctx statement batch c b
      refine ⟨request, batch, rfl, ?_⟩
      rcases htrace : traceSubmit ctx request batch c b with ⟨stages, e | outcome, after⟩
      all_goals
        simp only [trace, htrace] at h
        cases h
      rw [htrace] at hfiles
      rcases hfiles with ⟨-, hnot⟩ | ⟨other, haccepted, hother⟩
      · exact absurd rfl (hnot id)
      · rw [hother id rfl]
        simpa [Coordinator.stages, trace, htrace, Traced.andThen, Traced.done] using haccepted
  | flush reset =>
      rcases hflush : c.flushWith ctx reset b with ⟨e | totals, after⟩
      all_goals
        simp only [trace, traceFlush, hflush] at h
        cases h
  | clear | setBatchSize | setFetchKeys | setFlushOnMixed | takeKeys => cases h

end Acceptance

end Coordinator

end Cascade
