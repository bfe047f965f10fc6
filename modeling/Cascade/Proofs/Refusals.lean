import Cascade.Proofs.FlushOrder
import Cascade.Proofs.Submissions

/-!
# Refusals

An operation on a coordinator fails in one of two ways.  Either it submits a
record write of an unknown root type, and then nothing has happened at all; or
the store refused a statement, and then nothing waits any more, whether it was
a flush or a request executed at once that met the refusal.

A flush fails in the second way only.  A record write gets into a buffer only
if its root type is known, and it stays in the group of that type, so every
write of a group still binds when the group is executed.
-/

namespace Cascade

/-- The error tells that the store refused a statement. -/
def WriteError.IsExecution (e : WriteError) : Prop :=
  ∃ statement succeeded message, e = .execution statement succeeded message

theorem WriteError.isExecution_ofStore (statement : String) (earlier : Nat) (e : StoreError) :
    (WriteError.ofStore statement earlier e).IsExecution :=
  ⟨_, _, _, rfl⟩

theorem Request.exists_record_of_unknown
    {registry : Registry} {request : Request} (h : ¬request.Known registry) :
    ∃ record, request = .record record ∧ registry.contains record.root = false := by
  cases request with
  | record record =>
      refine ⟨record, rfl, ?_⟩
      by_contra hknown
      apply h
      intro root hroot
      cases hroot
      simpa using hknown
  | statement s => exact absurd nofun h

/-- A request of a known root type is refused by the store or not at all. -/
theorem Backing.isExecution_of_executeNow {σ : Type} [Store σ]
    {registry : Registry} {request : Request} (hknown : request.Known registry) {fetch : Bool}
    {b : Backing σ} {e : WriteError} (hfail : (b.executeNow registry fetch request).1 = .error e) :
    e.IsExecution := by
  obtain ⟨bound, hbound⟩ := hknown.exists_bind
  rw [Backing.executeNow, Request.execute, hbound] at hfail
  rcases hcall : Store.execute bound (fetch && bound.isInsert) b.store with
    ⟨refusal | result, after⟩
  all_goals
    simp only [hcall] at hfail
    cases hfail
  exact WriteError.isExecution_ofStore _ _ _

namespace Coordinator

variable {σ : Type} [Store σ] {ctx : Context} {c : Coordinator}

theorem Sendable.isExecution
    (h : c.Sendable ctx.registry) {reset : Bool} {b : Backing σ} {e : WriteError}
    (hfail : (c.flushWith ctx reset b).1 = .error e) : e.IsExecution := by
  rcases flushWith_cases ctx reset h b with
    ⟨totals, -, hok, -, -⟩ | ⟨sent, refused, rest, refusal, -, -, hrefused, -⟩
  · rw [hok] at hfail
    cases hfail
  · rw [hrefused] at hfail
    cases hfail
    exact WriteError.isExecution_ofStore _ _ _

section Failures

variable {operation : Operation} {request : Request} {b begun : Backing σ} {reset : Bool}
  {d : Coordinator} {e : WriteError}

/-- An operation in which a flush fails tells of a refused statement and leaves nothing behind. -/
theorem Reachable.fails_of_flush (hc : Reachable ctx c)
    (hmem : .flush reset d begun ∈ stages ctx operation c b)
    (hflush : (d.flushWith ctx reset begun).1 = .error e) :
    e.IsExecution ∧ (perform ctx operation c b).2.1.isEmpty = true := by
  refine ⟨(hc.flush_sendable hmem).isExecution hflush, ?_⟩
  rw [perform_of_failed_flush ctx hmem hflush]
  exact isEmpty_flushWith ctx reset d begun

/-- A request of a known root type that fails to be buffered has met a flush that failed. -/
theorem Reachable.fails_of_queued (hc : Reachable ctx c) (hknown : request.Known ctx.registry)
    (hfail : (perform ctx (.submit request true) c b).1 = .error e) :
    e.IsExecution ∧ (perform ctx (.submit request true) c b).2.1.isEmpty = true := by
  have hblames : (traceSubmit ctx request true c b).Blames ctx := by
    rw [traceSubmit_of_known hknown]
    apply (blames_traceFlushIf ctx _ c b).andThen
    intro _ c b
    exact blames_traceQueue ctx request c b
  have htrace : (traceSubmit ctx request true c b).2.1 = .error e := by
    rw [answer_submit] at hfail
    rcases h : (traceSubmit ctx request true c b).2.1 with e' | outcome
    all_goals
      rw [h] at hfail
      cases hfail
    rfl
  obtain ⟨reset, d, begun, hmem, hflush⟩ := hblames e htrace
  rw [← stages_submit] at hmem
  exact hc.fails_of_flush hmem hflush

/-- A request of a known root type that fails to be executed at once has met a flush that failed, or
it was refused itself, behind a flush that has left nothing to wait. -/
theorem Reachable.fails_of_executed (hc : Reachable ctx c) (hknown : request.Known ctx.registry)
    (hfail : (perform ctx (.submit request false) c b).1 = .error e) :
    e.IsExecution ∧ (perform ctx (.submit request false) c b).2.1.isEmpty = true := by
  have hstages : stages ctx (.submit request false) c b = (traceSubmit ctx request false c b).1 :=
    stages_submit request false c b
  rw [answer_submit] at hfail
  rw [perform_submit]
  rw [traceSubmit_of_known hknown, Bool.not_false, Bool.true_or] at hfail hstages ⊢
  have hempty : (traceFlushIf ctx true c b).2.2.1.isEmpty = true := by
    rw [traceFlushIf_coordinator]
    exact isEmpty_flushWith ctx false c b
  have hblames := blames_traceFlushIf ctx true c b
  rcases hflush : traceFlushIf ctx true c b with ⟨before, e' | _, settled, after⟩
  all_goals
    rw [hflush] at hfail hstages hempty hblames
    refine ⟨?_, hempty⟩
  · cases hfail
    obtain ⟨reset, d, begun, hmem, hrefused⟩ := hblames e rfl
    have hstage : .flush reset d begun ∈ stages ctx (.submit request false) c b := by
      rw [hstages]
      exact hmem
    exact (hc.fails_of_flush hstage hrefused).1
  · rcases hexecuted : (after.executeNow ctx.registry settled.policy.fetchKeys request).1 with
      refusal | outcome
    all_goals
      simp only [Traced.andThen, traceExecute, executeNow, Bool.false_eq_true, if_false,
        hexecuted] at hfail
      cases hfail
    exact Backing.isExecution_of_executeNow hknown hexecuted

theorem Reachable.fails_of_known {batch : Bool} (hc : Reachable ctx c)
    (hknown : request.Known ctx.registry)
    (hfail : (perform ctx (.submit request batch) c b).1 = .error e) :
    e.IsExecution ∧ (perform ctx (.submit request batch) c b).2.1.isEmpty = true := by
  cases batch with
  | true => exact hc.fails_of_queued hknown hfail
  | false => exact hc.fails_of_executed hknown hfail

end Failures

/-- In a reachable coordinator every buffered record write is in the group of its own root type,
which is known, so that no flush fails for an unknown root type.

An operation that fails is the submission of a record write of an unknown root type, and then the
coordinator and its backing are what they were; or the store has refused a statement, and then
nothing is buffered any more. -/
theorem fails_in_two_ways
    {ctx : Context} {c : Coordinator} (hc : Reachable ctx c) :
    (∀ entry ∈ c.window.entries, entry.2.root = entry.1 ∧ ctx.registry.contains entry.1 = true ∧
      ∀ write ∈ entry.2.pending, write.2.root = entry.1) ∧
    ∀ {σ : Type} [Store σ] (operation : Operation) (b : Backing σ),
      (∀ reset d begun e, .flush reset d begun ∈ stages ctx operation c b →
        (d.flushWith ctx reset begun).1 = .error e → e.IsExecution) ∧
      ∀ e, (perform ctx operation c b).1 = .error e →
        (e ≠ .discarded ∧ ∀ cause, e ≠ .policy cause) ∧
        ((∃ record batch, operation = .submit (.record record) batch ∧
            ctx.registry.contains record.root = false ∧ e = .unknownRoot record.root ∧
            (perform ctx operation c b).2 = (c, b)) ∨
          e.IsExecution ∧ (perform ctx operation c b).2.1.isEmpty = true) := by
  constructor
  · obtain ⟨n, -, hwell⟩ := hc.wellFormed
    intro entry hmem
    have hsound := hwell.sound entry hmem
    exact ⟨hsound.own, hsound.known, hsound.members⟩
  · intro σ _ operation b
    refine ⟨fun reset d begun e hmem hflush => (hc.flush_sendable hmem).isExecution hflush, ?_⟩
    intro e hfail
    have hways : (∃ record batch, operation = .submit (.record record) batch ∧
        ctx.registry.contains record.root = false ∧ e = .unknownRoot record.root ∧
        (perform ctx operation c b).2 = (c, b)) ∨
        e.IsExecution ∧ (perform ctx operation c b).2.1.isEmpty = true := by
      cases operation with
      | submit request batch =>
          by_cases hknown : request.Known ctx.registry
          · exact Or.inr (hc.fails_of_known hknown hfail)
          · obtain ⟨record, rfl, hroot⟩ := Request.exists_record_of_unknown hknown
            have hrefused : perform ctx (.submit (.record record) batch) c b =
                (.error (.unknownRoot record.root), c, b) := by
              simp [perform, submit, submitRecord, hroot, Step.andThen]
            rw [hrefused] at hfail ⊢
            cases hfail
            exact Or.inl ⟨record, batch, rfl, hroot, rfl, rfl⟩
      | flush reset =>
          rcases hflush : (c.flushWith ctx reset b).1 with e' | totals
          · have hmem : .flush reset c b ∈ stages ctx (.flush reset) c b := by
              rw [stages_flush]
              exact List.mem_singleton_self _
            rw [perform_of_failed_flush ctx hmem hflush] at hfail
            cases hfail
            exact Or.inr (hc.fails_of_flush hmem hflush)
          · rcases hstep : c.flushWith ctx reset b with ⟨e' | totals', last⟩
            all_goals
              rw [hstep] at hflush
              cases hflush
            rw [perform, hstep] at hfail
            cases hfail
      | clear | setBatchSize | setFetchKeys | setFlushOnMixed | takeKeys => cases hfail
    refine ⟨?_, hways⟩
    rcases hways with ⟨record, batch, -, -, rfl, -⟩ | ⟨⟨statement, succeeded, message, rfl⟩, -⟩
    · exact ⟨by simp, by simp⟩
    · exact ⟨by simp, by simp⟩

def oneWaiting (statement : Statement) : Coordinator :=
  (Coordinator.new {}).numbered.withStatement statement

theorem reachable_oneWaiting (ctx : Context) (statement : Statement) :
    Reachable ctx (oneWaiting statement) :=
  .step (.submit (.statement statement) true) (⟨{}, {}, []⟩ : Backing Memory) (.new {})

/-- A statement that is executed at once is refused behind a flush that has succeeded: nothing waits
any more, and the error does not count the flushed statement. -/
theorem fails_in_two_ways_of_immediate :
    Reachable ⟨.empty, "t", false⟩ (oneWaiting ⟨"x", []⟩) ∧
      (perform (σ := Memory) ⟨.empty, "t", false⟩ (.submit (.statement ⟨"y", []⟩) false)
        (oneWaiting ⟨"x", []⟩) ⟨{ failAt := some 2 }, {}, []⟩).1 =
          .error (.execution "y" 0 (Memory.refusal 2)) ∧
      (perform (σ := Memory) ⟨.empty, "t", false⟩ (.submit (.statement ⟨"y", []⟩) false)
        (oneWaiting ⟨"x", []⟩) ⟨{ failAt := some 2 }, {}, []⟩).2.1.isEmpty = true := by
  have hc := reachable_oneWaiting ⟨.empty, "t", false⟩ ⟨"x", []⟩
  have hfail : (perform (σ := Memory) ⟨.empty, "t", false⟩ (.submit (.statement ⟨"y", []⟩) false)
      (oneWaiting ⟨"x", []⟩) ⟨{ failAt := some 2 }, {}, []⟩).1 =
        .error (.execution "y" 0 (Memory.refusal 2)) :=
    rfl
  refine ⟨hc, hfail, ?_⟩
  rcases (((fails_in_two_ways hc).2 _ _).2 _ hfail).2 with ⟨_, _, -, -, hunknown, -⟩ | hrefused
  · cases hunknown
  · exact hrefused.2

end Coordinator

end Cascade
