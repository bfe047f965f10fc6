import Cascade.Proofs.Tickets
import Cascade.Proofs.WellFormed

/-!
# Passages

One operation on a coordinator is one passage of its tickets.  Either no ticket
comes in, or the request of the operation is buffered and its ticket enters the
line, or the request is executed at once, behind everything that waited.
-/

namespace Cascade.Coordinator

variable {σ : Type}

/-- An operation that was performed, with its answer and its stages. -/
structure Act (σ : Type) where
  operation : Operation
  answer : Except WriteError Reply
  stages : List (Stage σ)

def Act.of [Store σ] (ctx : Context) (operation : Operation) (c : Coordinator) (b : Backing σ) :
    Act σ :=
  ⟨operation, (perform ctx operation c b).1, Coordinator.stages ctx operation c b⟩

/-- The ticket is that of a request that an act has buffered. -/
def Ticket.Buffered (registry : Registry) (act : Act σ) (ticket : Ticket) : Prop :=
  act.operation = .submit ticket.request true ∧
    ∃ id, accepted act.stages = [(id, ticket.request)] ∧
      ticket.request.parcel? registry id = some ticket.parcel

/-- The ticket is that of a request that an act has executed at once. -/
def Ticket.Immediate (registry : Registry) (act : Act σ) (ticket : Ticket) : Prop :=
  act.operation = .submit ticket.request false ∧
    ticket.request.sentNow registry = [ticket.parcel]

/-- The request of an operation is refused, if it submits one. -/
def Refuses [Store σ] (ctx : Context) (operation : Operation) (c : Coordinator) (b : Backing σ) :
    Prop :=
  ∀ request batch, operation = .submit request batch →
    ∃ e, (perform ctx operation c b).1 = .error e

/-- What the `i`th operation does to the tickets that wait: which are sent, which remain and which
are lost. -/
inductive Passage [Store σ] (ctx : Context) (i : Nat) (operation : Operation) (c : Coordinator)
    (b : Backing σ) (waiting : List Ticket) : List Ticket → List Ticket → List Ticket → Prop
  /-- No ticket comes in: nothing is submitted, or the request is refused. -/
  | idle {sent remaining lost : List Ticket} : Refuses ctx operation c b →
      waiting = sent ++ (remaining ++ lost) →
      Passage ctx i operation c b waiting sent remaining lost
  /-- The ticket of the request enters the line. -/
  | buffer {entry : Ticket} {sent remaining lost : List Ticket} : entry.submitted = i →
      entry.Buffered ctx.registry (.of ctx operation c b) →
      entry.Enters ctx.registry (c.readied ctx entry.request b) waiting (sent ++ remaining) lost →
      Passage ctx i operation c b waiting sent remaining lost
  /-- The ticket of the request is sent at once, behind all others. -/
  | execute {entry : Ticket} {sent lost : List Ticket} : entry.submitted = i →
      entry.Immediate ctx.registry (.of ctx operation c b) → waiting = sent ++ lost →
      Passage ctx i operation c b waiting (sent ++ [entry]) [] lost

/-- The passage of an operation, with what is sent and dropped in it and the line after it. -/
structure Passes [Store σ] (ctx : Context) (i : Nat) (operation : Operation) (c : Coordinator)
    (b : Backing σ) (waiting sent remaining lost : List Ticket) : Prop where
  passage : Passage ctx i operation c b waiting sent remaining lost
  sends : sent.map Ticket.parcel = sends ctx.registry (stages ctx operation c b)
  drops : (lost.map Ticket.parcel).Perm (dropped ctx.registry (stages ctx operation c b))
  stand : Stand ctx.registry remaining (perform ctx operation c b).2.1

section Passage

variable [Store σ] {ctx : Context} {request : Request} {operation : Operation} {c : Coordinator}
  {b : Backing σ} {waiting : List Ticket} {given : Bool}

/-- No ticket comes in where every stage is silent. -/
theorem passes_of_silent
    (h : Moment.WellFormed ctx.registry ⟨given, c, b⟩) (hstand : Stand ctx.registry waiting c)
    (hsilent : ∀ stage ∈ stages ctx operation c b, stage.Silent)
    (hrefuses : Refuses ctx operation c b) (i : Nat) :
    ∃ sent remaining lost, Passes ctx i operation c b waiting sent remaining lost := by
  obtain ⟨last, hpath⟩ := path_stages ctx given operation c b
  obtain ⟨sent, remaining, lost, hdeparts, hremaining⟩ := hpath.departs h hsilent hstand
  exact ⟨sent, remaining, lost, .idle hrefuses hdeparts.split, hdeparts.sent, hdeparts.lost,
    hremaining⟩

theorem silent_traceFlushIf (condition : Bool) (c : Coordinator) (b : Backing σ) :
    ∀ stage ∈ (traceFlushIf ctx condition c b).1, stage.Silent := by
  intro stage hmem
  rw [(mem_traceFlushIf_iff.1 hmem).2]
  trivial

/-- While a request is buffered its ticket enters the line, or a flush fails before that. -/
theorem enters_traceQueue
    (hknown : request.Known ctx.registry) (h : Moment.WellFormed ctx.registry ⟨given, c, b⟩)
    (hstand : Stand ctx.registry waiting c) (i : Nat) :
    ∃ sent remaining lost,
      (((∃ e, (traceQueue ctx request c b).2.1 = .error e) ∧
          waiting = sent ++ (remaining ++ lost)) ∨
        ∃ id parcel, accepted (traceQueue ctx request c b).1 = [(id, request)] ∧
          request.parcel? ctx.registry id = some parcel ∧
          Ticket.Enters ctx.registry c ⟨i, request, parcel⟩ waiting (sent ++ remaining) lost) ∧
      sent.map Ticket.parcel = sends ctx.registry (traceQueue ctx request c b).1 ∧
      (lost.map Ticket.parcel).Perm (dropped ctx.registry (traceQueue ctx request c b).1) ∧
      Stand ctx.registry remaining (traceQueue ctx request c b).2.2.1 := by
  obtain ⟨flag, hpath⟩ := leads_traceQueue hknown given c b
  have hbuffers := buffers_traceQueue ctx request c b
  rcases files_traceQueue request c b with ⟨hnone, hanswer⟩ | ⟨id, haccepted, -⟩
  · obtain ⟨sent, remaining, lost, hdeparts, hremaining⟩ :=
      hpath.departs h (silent_of_buffers hbuffers hnone) hstand
    refine ⟨sent, remaining, lost, Or.inl ⟨?_, hdeparts.split⟩, hdeparts.sent, hdeparts.lost,
      hremaining⟩
    rcases hresult : (traceQueue ctx request c b).2.1 with e | outcome
    · exact ⟨e, rfl⟩
    · obtain ⟨id, rfl⟩ := exists_queued hresult
      exact absurd hresult (hanswer id)
  · obtain ⟨parcel, sent, remaining, lost, hparcel, henters, hsends, hdrops, hremaining⟩ :=
      hpath.enters h hbuffers haccepted hstand i
    exact ⟨sent, remaining, lost, Or.inr ⟨id, parcel, haccepted, hparcel, henters⟩, hsends, hdrops,
      hremaining⟩

/-! ## Submissions behind a flush -/

/-- The flush that comes first in a submission has succeeded, and `flushes` are its stages. -/
structure Flushed (ctx : Context) (request : Request) (batch : Bool) (c : Coordinator)
    (b : Backing σ) (flushes : List (Stage σ)) (c' : Coordinator) (b' : Backing σ) : Prop where
  traced : traceFlushIf ctx (!batch || c.mixes request) c b = (flushes, (.ok (), c', b'))
  stages : stages ctx (.submit request batch) c b = flushes ++
    (if batch then traceQueue ctx request c' b' else traceExecute ctx request c' b').1
  after : (perform ctx (.submit request batch) c b).2.1 =
    (if batch then traceQueue ctx request c' b' else traceExecute ctx request c' b').2.2.1
  answer : (perform ctx (.submit request batch) c b).1 =
    (if batch then traceQueue ctx request c' b' else traceExecute ctx request c' b').2.1.map
      Reply.outcome

theorem Flushed.of_traced
    (hknown : request.Known ctx.registry) {batch : Bool} {flushes : List (Stage σ)}
    {c' : Coordinator} {b' : Backing σ}
    (h : traceFlushIf ctx (!batch || c.mixes request) c b = (flushes, (.ok (), c', b'))) :
    Flushed ctx request batch c b flushes c' b' := by
  refine ⟨h, ?_, ?_, ?_⟩
  · rw [stages_submit, traceSubmit_of_known hknown, h]
    rfl
  · rw [perform_submit, traceSubmit_of_known hknown, h]
    rfl
  · rw [answer_submit, traceSubmit_of_known hknown, h]
    rfl

theorem Departs.lost_append
    {flushes rest : List (Stage σ)} {first middle gone lost : List Ticket}
    (h : Departs ctx.registry flushes waiting first middle gone)
    (hdrops : (lost.map Ticket.parcel).Perm (dropped ctx.registry rest)) :
    ((lost ++ gone).map Ticket.parcel).Perm (dropped ctx.registry (flushes ++ rest)) := by
  rw [List.map_append, dropped, List.flatMap_append]
  exact (hdrops.append h.lost).trans List.perm_append_comm

theorem Departs.sent_append
    {flushes rest : List (Stage σ)} {first middle gone later : List Ticket}
    (h : Departs ctx.registry flushes waiting first middle gone)
    (hsends : later.map Ticket.parcel = sends ctx.registry rest) :
    (first ++ later).map Ticket.parcel = sends ctx.registry (flushes ++ rest) := by
  rw [List.map_append, h.sent, hsends]
  exact List.flatMap_append.symm

section Flushed

variable {flushes : List (Stage σ)} {c' : Coordinator} {b' : Backing σ}
  {first middle gone : List Ticket}

/-- Behind the flush a request is executed at once, and nothing waits any more. -/
theorem Flushed.passes_now
    (h : Flushed ctx request false c b flushes c' b') (hknown : request.Known ctx.registry)
    (hfirst : Departs ctx.registry flushes waiting first middle gone)
    (hmiddle : Stand ctx.registry middle c') (i : Nat) :
    ∃ sent remaining lost,
      Passes ctx i (.submit request false) c b waiting sent remaining lost := by
  have hempty : c'.line ctx.registry = [] := by
    have hflushed := traceFlushIf_coordinator ctx (!false || c.mixes request) c b
    rw [h.traced] at hflushed
    simp only [Bool.not_false, Bool.true_or, if_true] at hflushed
    rw [hflushed, line_eq_nil_iff]
    exact parcels_flushWith ctx.registry ctx false c b
  have hnone : middle = [] := List.map_eq_nil_iff.1 (hmiddle.trans hempty)
  subst hnone
  obtain ⟨bound, hbound⟩ := hknown.exists_bind
  have hnow : request.sentNow ctx.registry = [⟨none, bound⟩] := by
    simp [Request.sentNow, hbound]
  refine ⟨first ++ [⟨i, request, ⟨none, bound⟩⟩], [], [] ++ gone,
    .execute rfl ⟨rfl, hnow⟩ hfirst.split, ?_, ?_, ?_⟩
  · rw [h.stages]
    apply hfirst.sent_append
    exact hnow.symm.trans (List.append_nil _).symm
  · rw [h.stages]
    exact hfirst.lost_append (List.Perm.refl [])
  · rw [h.after]
    exact hempty.symm

/-- Behind the flush the ticket of a request enters the line, or another flush fails before. -/
theorem Flushed.passes_later
    (h : Flushed ctx request true c b flushes c' b') (hknown : request.Known ctx.registry)
    (hwell : Moment.WellFormed ctx.registry ⟨given, c', b'⟩)
    (hfirst : Departs ctx.registry flushes waiting first middle gone)
    (hmiddle : Stand ctx.registry middle c') (i : Nat) :
    ∃ sent remaining lost, Passes ctx i (.submit request true) c b waiting sent remaining lost := by
  have hready := traceFlushIf_coordinator ctx (c.mixes request) c b
  have haccepted := accepted_traceFlushIf ctx (c.mixes request) c b
  have htraced : traceFlushIf ctx (c.mixes request) c b = (flushes, (.ok (), c', b')) := h.traced
  rw [htraced] at hready haccepted
  obtain ⟨later, remaining, lost, henters, hsends, hdrops, hremaining⟩ :=
    enters_traceQueue hknown hwell hmiddle i
  have hstages : Coordinator.stages ctx (.submit request true) c b =
      flushes ++ (traceQueue ctx request c' b').1 :=
    h.stages
  refine ⟨first ++ later, remaining, lost ++ gone, ?_, ?_, ?_, ?_⟩
  · rcases henters with ⟨⟨e, hfail⟩, hsplit⟩ | ⟨id, parcel, hid, hparcel, henters⟩
    · refine .idle ?_ ?_
      · intro other batch hoperation
        cases hoperation
        refine ⟨e, ?_⟩
        rw [h.answer, if_pos rfl, hfail]
        rfl
      · rw [hfirst.split, hsplit]
        simp
    · have hbuffered : Ticket.Buffered ctx.registry (.of ctx (.submit request true) c b)
          ⟨i, request, parcel⟩ := by
        refine ⟨rfl, id, ?_, hparcel⟩
        rw [Act.of, hstages, accepted_append, haccepted, hid]
        rfl
      have hin := henters.after first gone
      have hreadied : c' = c.readied ctx request b := hready
      rw [← hfirst.split, ← List.append_assoc, hreadied] at hin
      exact .buffer rfl hbuffered hin
  · rw [hstages]
    exact hfirst.sent_append hsends
  · rw [hstages]
    exact hfirst.lost_append hdrops
  · rw [h.after]
    exact hremaining

end Flushed

/-- A request of a known root type is buffered, or it is executed behind everything that waits. -/
theorem passes_submit
    (hknown : request.Known ctx.registry) (h : Moment.WellFormed ctx.registry ⟨given, c, b⟩)
    (hstand : Stand ctx.registry waiting c) (batch : Bool) (i : Nat) :
    ∃ sent remaining lost,
      Passes ctx i (.submit request batch) c b waiting sent remaining lost := by
  have hpath := leadsTo_traceFlushIf ctx given (!batch || c.mixes request) c b
  obtain ⟨first, middle, gone, hfirst, hmiddle⟩ :=
    hpath.departs h (silent_traceFlushIf _ c b) hstand
  have hwell := (hpath.keeps Move.wellFormed h).1
  rcases ht : traceFlushIf ctx (!batch || c.mixes request) c b with ⟨flushes, e | _, c', b'⟩
  all_goals rw [ht] at hfirst hmiddle hwell
  · -- The flush fails, and with it the submission.
    have htraced : traceSubmit ctx request batch c b = (flushes, (.error e, c', b')) := by
      rw [traceSubmit_of_known hknown, ht]
      rfl
    refine ⟨first, middle, gone, .idle ?_ hfirst.split, ?_, ?_, ?_⟩
    · intro other held _
      refine ⟨e, ?_⟩
      rw [answer_submit, htraced]
      rfl
    · rw [stages_submit, htraced]
      exact hfirst.sent
    · rw [stages_submit, htraced]
      exact hfirst.lost
    · rw [perform_submit, htraced]
      exact hmiddle
  · have hflushed : Flushed ctx request batch c b flushes c' b' := .of_traced hknown ht
    cases batch with
    | false => exact hflushed.passes_now hknown hfirst hmiddle i
    | true => exact hflushed.passes_later hknown hwell hfirst hmiddle i

/-- Every operation is one passage of the tickets that wait. -/
theorem exists_passes
    (h : Moment.WellFormed ctx.registry ⟨given, c, b⟩) (hstand : Stand ctx.registry waiting c)
    (operation : Operation) (i : Nat) :
    ∃ sent remaining lost, Passes ctx i operation c b waiting sent remaining lost := by
  cases operation with
  | submit request batch =>
      by_cases hknown : request.Known ctx.registry
      · exact passes_submit hknown h hstand batch i
      · obtain ⟨root, hrefused⟩ := traceSubmit_of_unknown hknown batch c b
        refine passes_of_silent h hstand ?_ ?_ i
        · rw [stages_submit, hrefused]
          exact List.forall_mem_nil _
        · intro other held _
          refine ⟨.unknownRoot root, ?_⟩
          rw [answer_submit, hrefused]
          rfl
  | flush reset =>
      refine passes_of_silent h hstand ?_ (fun _ _ heq => by cases heq) i
      rw [stages_flush]
      exact List.forall_mem_singleton.2 trivial
  | clear | setBatchSize | setFetchKeys | setFlushOnMixed | takeKeys =>
      exact passes_of_silent h hstand (List.forall_mem_singleton.2 trivial)
        (fun _ _ heq => by cases heq) i

end Passage

end Cascade.Coordinator
