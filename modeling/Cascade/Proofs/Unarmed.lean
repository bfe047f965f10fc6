import Cascade.Proofs.FailedFlush
import Cascade.Proofs.Passages

/-!
# Runs without failures

Over a recording store in which no failure is armed nothing fails and nothing is
lost.  Every stage but a clear records what it sends, and every request of a
known root type is buffered or executed.
-/

namespace Cascade

/-- A recording store in which no failure is armed executes a statement and records it as it is. -/
theorem Memory.execute_of_unarmed
    (statement : Statement) (fetch : Bool) {m : Memory} (h : m.failAt = none) :
    ∃ result after, Store.execute statement fetch m = (.ok result, after) ∧
      after.log = m.log ++ [statement] ∧ after.failAt = none := by
  let entry : Executed := ⟨statement.text, statement.params, none⟩
  refine ⟨⟨1, ((m.recorded entry).issueKey (fetch && statement.isInsert)).1.head?⟩,
    ((m.recorded entry).issueKey (fetch && statement.isInsert)).2, ?_, ?_, ?_⟩
  · simp only [Store.execute, execute, record_of_spared (spared_of_unarmed h 1) entry, entry]
  · cases fetch && statement.isInsert <;> simp [issueKey, recorded, log, entry]
  · cases fetch && statement.isInsert <;> exact h

theorem Backing.executeNow_of_unarmed
    {registry : Registry} {request : Request} {bound : Statement}
    (hbound : request.bind registry = .ok bound) (fetch : Bool) {b : Backing Memory}
    (h : b.store.failAt = none) :
    (∃ outcome, (b.executeNow registry fetch request).1 = .ok outcome) ∧
      (b.executeNow registry fetch request).2.store.log = b.store.log ++ [bound] ∧
      (b.executeNow registry fetch request).2.store.failAt = none := by
  obtain ⟨result, after, hcall, hlog, hafter⟩ :=
    Memory.execute_of_unarmed bound (fetch && bound.isInsert) h
  simp only [executeNow, Request.execute, hbound, hcall]
  exact ⟨⟨_, rfl⟩, hlog, hafter⟩

namespace Coordinator

/-- What stages do over a recording store in which no failure is armed: what they send is recorded,
nothing is dropped and no flush fails. -/
structure Recorded (ctx : Context) (stages : List (Stage Memory)) (before after : Memory) :
    Prop where
  unarmed : after.failAt = none
  log : after.log = before.log ++ (sends ctx.registry stages).map Parcel.statement
  kept : dropped ctx.registry stages = []
  flushed : ∀ reset c b, .flush reset c b ∈ stages →
    ∃ totals, (c.flushWith ctx reset b).1 = .ok totals

section Recorded

variable {ctx : Context} {stage : Stage Memory} {stages others : List (Stage Memory)}
  {m next last : Moment Memory} {before middle after : Memory}

theorem Recorded.nil (ctx : Context) (h : before.failAt = none) :
    Recorded ctx [] before before where
  unarmed := h
  log := (List.append_nil _).symm
  kept := rfl
  flushed := nofun

theorem Recorded.append
    (h : Recorded ctx stages before middle) (h' : Recorded ctx others middle after) :
    Recorded ctx (stages ++ others) before after where
  unarmed := h'.unarmed
  log := by
    rw [h'.log, h.log, List.append_assoc, ← List.map_append, sends, sends, sends,
      List.flatMap_append]
  kept := by
    have hdropped : dropped ctx.registry (stages ++ others) =
        dropped ctx.registry stages ++ dropped ctx.registry others :=
      List.flatMap_append
    rw [hdropped, h.kept, h'.kept]
    rfl
  flushed := by
    intro reset c b hmem
    rcases List.mem_append.1 hmem with hmem | hmem
    · exact h.flushed reset c b hmem
    · exact h'.flushed reset c b hmem

/-- A stage that is no flush, sends nothing and drops nothing changes nothing that counts. -/
theorem Recorded.of_silent
    (h : before.failAt = none) (hsends : stage.sends ctx.registry = [])
    (hdropped : stage.dropped ctx.registry = []) (hflush : ∀ reset c b, stage ≠ .flush reset c b) :
    Recorded ctx [stage] before before where
  unarmed := h
  log := by simp [sends, hsends]
  kept := by simp [dropped, hdropped]
  flushed := fun reset c b hmem => absurd (List.mem_singleton.1 hmem).symm (hflush reset c b)

theorem recorded_flush
    {c : Coordinator} (hc : c.Sendable ctx.registry) (reset : Bool) {b : Backing Memory}
    (h : b.store.failAt = none) :
    Recorded ctx [.flush reset c b] b.store (c.flushWith ctx reset b).2.2.store := by
  obtain ⟨hok, hlog, hafter⟩ := flushWith_of_unarmed ctx reset hc h
  have hattempts : (Stage.flush reset c b).attempts ctx.registry =
      (c.calls ctx.registry).map StatementGroup.accepted :=
    attempted_of_obliging _ _ (Memory.obliging h)
  have hsends : sends ctx.registry [.flush reset c b] = c.parcels ctx.registry := by
    rw [← hc.parcels_calls]
    simp [sends, Stage.sends, hattempts, List.flatMap_map, StatementGroup.accepted]
  refine ⟨hafter, ?_, ?_, ?_⟩
  · rw [hlog, hsends]
  · simp [dropped, Stage.dropped, hattempts]
  · intro other d begun hmem
    cases List.mem_singleton.1 hmem
    exact hok

theorem recorded_execute
    (registry : Registry) (fetch : Bool) (request : Request) {b : Backing Memory}
    (h : b.store.failAt = none) :
    (b.executeNow registry fetch request).2.store.failAt = none ∧
      (b.executeNow registry fetch request).2.store.log =
        b.store.log ++ (request.sentNow registry).map Parcel.statement := by
  rcases hbound : request.bind registry with e | bound
  · simp [Backing.executeNow, Request.execute, Request.sentNow, hbound, h]
  · obtain ⟨-, hlog, hafter⟩ := Backing.executeNow_of_unarmed hbound fetch h
    simp [Request.sentNow, hbound, hlog, hafter]

theorem Move.recorded
    (hmove : Move ctx stage m next) (h : m.WellFormed ctx.registry)
    (hclear : ∀ c, stage ≠ .clear c) (hunarmed : m.backing.store.failAt = none) :
    Recorded ctx [stage] m.backing.store next.backing.store := by
  cases hmove with
  | flush given reset c b =>
      obtain ⟨n, -, hwell⟩ := h
      exact recorded_flush hwell.sendable reset hunarmed
  | execute given request c b =>
      obtain ⟨hafter, hlog⟩ := recorded_execute ctx.registry c.policy.fetchKeys request hunarmed
      refine ⟨hafter, ?_, rfl, ?_⟩
      · refine hlog.trans ?_
        simp [sends, Stage.sends]
      · intro reset d begun hmem
        cases List.mem_singleton.1 hmem
  | clear given c b => exact absurd rfl (hclear c)
  | number | statement | member | entrant | force | adjust =>
      exact .of_silent hunarmed rfl rfl (by simp)

theorem Path.recorded
    (hpath : Path ctx stages m last) (h : m.WellFormed ctx.registry)
    (hclear : ∀ c, .clear c ∉ stages) (hunarmed : m.backing.store.failAt = none) :
    Recorded ctx stages m.backing.store last.backing.store := by
  induction hpath with
  | nil m => exact .nil ctx hunarmed
  | @cons stage stages m next last hmove _ ih =>
      have hstage := hmove.recorded h (fun c heq => hclear c (heq ▸ List.mem_cons_self)) hunarmed
      have hrest := ih (hmove.wellFormed h) (fun c hmem => hclear c (List.mem_cons_of_mem _ hmem))
        hstage.unarmed
      exact hstage.append hrest

end Recorded

section Operations

variable {ctx : Context} {request : Request} {operation : Operation} {c : Coordinator}
  {b : Backing Memory} {given : Bool}

/-- Every operation but a clear records what it sends and drops nothing. -/
theorem recorded_perform
    (h : Moment.WellFormed ctx.registry ⟨given, c, b⟩) (hne : operation ≠ .clear)
    (hunarmed : b.store.failAt = none) :
    Recorded ctx (stages ctx operation c b) b.store (perform ctx operation c b).2.2.store := by
  obtain ⟨last, hpath⟩ := path_stages ctx given operation c b
  exact hpath.recorded h (fun d => clear_not_mem_stages ctx hne c d b) hunarmed

theorem Traced.Blames.ok {α : Type} {t : Traced Memory α}
    (h : t.Blames ctx) {after : Memory} (hrecorded : Recorded ctx t.1 b.store after) :
    ∃ a, t.2.1 = .ok a := by
  rcases hresult : t.2.1 with e | a
  · obtain ⟨reset, d, begun, hmem, hfail⟩ := h e hresult
    obtain ⟨totals, hok⟩ := hrecorded.flushed reset d begun hmem
    cases hfail.symm.trans hok
  · exact ⟨a, rfl⟩

/-- A request of a known root type is buffered or executed. -/
theorem answer_of_unarmed
    (hknown : request.Known ctx.registry) (h : Moment.WellFormed ctx.registry ⟨given, c, b⟩)
    (hunarmed : b.store.failAt = none) (batch : Bool) :
    ∃ outcome, (perform ctx (.submit request batch) c b).1 = .ok (.outcome outcome) := by
  have hfirst := leadsTo_traceFlushIf ctx given (!batch || c.mixes request) c b
  have hrecorded := hfirst.recorded h (by
    intro d hmem
    cases (mem_traceFlushIf_iff.1 hmem).2) hunarmed
  have hwell := (hfirst.keeps Move.wellFormed h).1
  obtain ⟨_, hok⟩ :=
    (blames_traceFlushIf ctx (!batch || c.mixes request) c b).ok hrecorded
  rcases ht : traceFlushIf ctx (!batch || c.mixes request) c b with ⟨flushes, result, c', b'⟩
  rw [ht] at hok hrecorded hwell
  cases hok
  have hflushed : Flushed ctx request batch c b flushes c' b' := .of_traced hknown ht
  rw [hflushed.answer]
  cases batch with
  | true =>
      obtain ⟨flag, hqueue⟩ := leads_traceQueue hknown given c' b'
      have hqueued := hqueue.recorded hwell (by
        intro d hmem
        cases buffers_traceQueue ctx request c' b' _ hmem) hrecorded.unarmed
      obtain ⟨outcome, hok⟩ := (blames_traceQueue ctx request c' b').ok hqueued
      exact ⟨outcome, by simp [hok, Except.map]⟩
  | false =>
      obtain ⟨bound, hbound⟩ := hknown.exists_bind
      obtain ⟨⟨outcome, hok⟩, -⟩ :=
        Backing.executeNow_of_unarmed hbound c'.policy.fetchKeys hrecorded.unarmed
      refine ⟨outcome, ?_⟩
      have hanswer : (traceExecute ctx request c' b').2.1 = .ok outcome := hok
      simp [hanswer, Except.map]

end Operations

end Coordinator

end Cascade
