import Cascade.Proofs.Refusals
import Cascade.Proofs.Transparency

/-!
# Errands

What an operation on a transaction leads to, once and for all operations.  A
transaction that has ended refuses it; a policy may be rejected; nothing may
have to be done; a request may be executed at once, where there is no
coordinator; and otherwise the coordinator is sent on an errand, which fails or
is done.

Every invariant of transactions is read off these cases.  The first is that a
transaction has a coordinator only while it is active.
-/

namespace Cascade.Transaction

variable {σ : Type} [Store σ]

/-- The transaction has no coordinator, or it is active and has a new one. -/
def Fresh (t : Transaction) : Prop :=
  t.coordinator = none ∨ t.state = .active ∧ ∃ policy, t.coordinator = some (.new policy)

/-- What an operation leads to. -/
inductive Leads (operation : Operation) (t : Transaction) (b : Backing σ) :
    Step Transaction σ Coordinator.Reply → Prop
  | refused : t.state ≠ .active → Leads operation t b (.error .discarded, t, b)
  /-- Batching is to be enabled with a policy that is not valid. -/
  | rejected (policy : Policy) (cause : PolicyError) : t.state = .active →
      operation = .enable policy → policy.check = .error cause →
      Leads operation t b (.error (.policy cause), t, b)
  /-- The store is asked for nothing, and what waits goes on waiting. -/
  | idle (answer : Coordinator.Reply) {next : Transaction} {last : Backing σ} :
      t.stages operation b = [] → next.context = t.context → last.store = b.store →
      last.metrics = b.metrics →
      (next.state = t.state ∧ next.coordinator = t.coordinator ∨
        t.state = .active ∧ t.coordinator = none ∧ next.Fresh) →
      Leads operation t b (.ok answer, next, last)
  /-- Without a coordinator a request is executed at once. -/
  | executed (request : Request) : t.state = .active → t.coordinator = none →
      operation.requests t.depth = [request] →
      Leads operation t b ((b.executeNow t.context.registry true request).1.map .outcome, t,
        (b.executeNow t.context.registry true request).2)
  /-- The errand fails, and the coordinator stays as the errand has left it. -/
  | failed {c d : Coordinator} {errand : Coordinator.Operation} {e : WriteError}
      {after : Backing σ} : t.state = .active → t.coordinator = some c →
      t.errand? operation = some errand →
      Coordinator.perform t.context errand c b = (.error e, d, after) →
      Leads operation t b (.error e, { t with coordinator := some d }, after)
  /-- The errand is done, and the coordinator stays or is let go with nothing that waits. -/
  | done (answer : Coordinator.Reply) {c d : Coordinator} {errand : Coordinator.Operation}
      {reply : Coordinator.Reply} {after last : Backing σ} {next : Transaction} :
      t.state = .active → t.coordinator = some c → t.errand? operation = some errand →
      Coordinator.perform t.context errand c b = (.ok reply, d, after) →
      next.context = t.context → last.store = after.store → last.metrics = after.metrics →
      (next.state = .active ∧ next.coordinator = some d ∨ d.isEmpty = true ∧ next.Fresh) →
      Leads operation t b (.ok answer, next, last)

section Cases

variable {t : Transaction} {operation : Operation} {b : Backing σ}

omit [Store σ] in
/-- Once the coordinator has been let go, an operation takes on a new one or none. -/
theorem fresh_completed
    (hretires : operation.retires = true) (hactive : t.state = .active) (h : t.coordinator = none)
    (b : Backing σ) :
    (operation.completed t b).1.Fresh ∧ (operation.completed t b).1.context = t.context ∧
      (operation.completed t b).2.store = b.store ∧
      (operation.completed t b).2.metrics = b.metrics := by
  cases operation with
  | enable policy => exact ⟨Or.inr ⟨hactive, policy, rfl⟩, rfl, rfl, rfl⟩
  | disable | commit => exact ⟨Or.inl h, rfl, rfl, rfl⟩
  | save | run | runNow | flush | coordinate | push | pop | takeKeys | rollback => cases hretires

theorem leads_of_rejected
    {policy : Policy} {cause : PolicyError} (hactive : t.state = .active)
    (hpolicy : policy.check = .error cause) (b : Backing σ) :
    Leads (.enable policy) t b (perform (.enable policy) t b) := by
  rw [perform_of_rejected hactive hpolicy]
  exact .rejected policy cause hactive rfl hpolicy

theorem leads_of_none
    (hactive : t.state = .active) (hnone : t.coordinator = none) (operation : Operation)
    (b : Backing σ) : Leads operation t b (perform operation t b) := by
  have hstages := stages_of_none hnone operation b
  have hexecute : ∀ request, operation.requests t.depth = [request] →
      Leads operation t b ((t.executeNow request b).andThen
        (fun outcome t b => (.ok (.outcome outcome), t, b))) := by
    intro request hrequest
    have hexecuted : Leads operation t b _ := .executed request hactive hnone hrequest
    unfold executeNow
    rcases h : b.executeNow t.context.registry true request with ⟨e | outcome, after⟩
    all_goals
      rw [h] at hexecuted
      exact hexecuted
  have hunguarded : operation.guarded = false → Leads operation t b (perform operation t b) := by
    intro hguarded
    obtain ⟨answer, next, hperform, hcontext, hstate, hnext⟩ :=
      perform_of_unguarded hnone hguarded b
    rw [hperform]
    exact .idle answer hstages hcontext rfl rfl (Or.inl ⟨hstate, hnext.trans hnone.symm⟩)
  have hretire : ∀ errand, operation.retires = true → t.errand? operation = some errand →
      Leads operation t b (perform operation t b) := by
    intro errand hretires herrand
    obtain ⟨-, hperform⟩ := perform_of_retired hactive hretires herrand b
    obtain ⟨hfresh, hcontext, hstore, hmetrics⟩ := fresh_completed hretires hactive hnone b
    rw [hperform, retire_of_none hnone]
    exact .idle _ hstages hcontext hstore hmetrics (Or.inr ⟨hactive, hnone, hfresh⟩)
  cases operation with
  | enable policy =>
      rcases hpolicy : policy.check with cause | checked
      · exact leads_of_rejected hactive hpolicy b
      · exact hretire _ rfl (errand?_of_check hpolicy t)
  | disable | commit => exact hretire _ rfl rfl
  | coordinate | push | pop | takeKeys => exact hunguarded rfl
  | save record =>
      rw [perform, save, whileActive_of_active hactive]
      simp only [hnone]
      exact hexecute _ rfl
  | run statement =>
      rw [perform, run, whileActive_of_active hactive]
      simp only [hnone]
      exact hexecute _ rfl
  | runNow statement =>
      rw [perform, runNow, whileActive_of_active hactive]
      simp only [hnone]
      exact hexecute _ rfl
  | flush =>
      rw [perform, flush, whileActive_of_active hactive]
      simp only [hnone]
      exact .idle _ hstages rfl rfl rfl (Or.inl ⟨rfl, rfl⟩)
  | rollback =>
      rw [perform, rollback, whileActive_of_active hactive]
      simp only [hnone]
      exact .idle _ hstages rfl rfl rfl (Or.inr ⟨hactive, hnone, Or.inl rfl⟩)

/-- To let go of a coordinator is to flush it, if the flush succeeds. -/
theorem retire_of_done
    {c d : Coordinator} {after : Backing σ} {reply : Coordinator.Reply} (h : t.coordinator = some c)
    (hdone : Coordinator.perform t.context (.flush false) c b = (.ok reply, d, after)) :
    d.isEmpty = true ∧ ∃ keys last,
      t.retire b = (.ok (), { t with coordinator := none, keys := keys }, last) ∧
        last.store = after.store ∧ last.metrics = after.metrics := by
  have hempty := Coordinator.isEmpty_flushWith t.context false c b
  unfold retire
  rw [h]
  simp only [Coordinator.flush]
  rw [Coordinator.perform] at hdone
  rcases hflush : c.flushWith t.context false b with ⟨e | totals, settled, flushed⟩
  all_goals
    rw [hflush] at hdone hempty
    cases hdone
  refine ⟨hempty, _, _, rfl, ?_, ?_⟩
  all_goals
    simp only [Coordinator.discard]
    split <;> rfl

theorem leads_of_errand
    {c : Coordinator} {errand : Coordinator.Operation} (hactive : t.state = .active)
    (h : t.coordinator = some c) (herrand : t.errand? operation = some errand) (b : Backing σ) :
    Leads operation t b (perform operation t b) := by
  rcases hperform : Coordinator.perform t.context errand c b with ⟨e | reply, d, after⟩
  · rw [perform_of_failed_errand hactive h herrand hperform]
    exact .failed hactive h herrand hperform
  · have hretires : operation.retires = true → Leads operation t b (perform operation t b) := by
      intro hretires
      obtain ⟨rfl, hretired⟩ := perform_of_retired hactive hretires herrand b
      obtain ⟨hempty, keys, last, hretire, hstore, hmetrics⟩ := retire_of_done h hperform
      have hnext : ({ t with coordinator := none, keys := keys } : Transaction).state = .active :=
        hactive
      obtain ⟨hfresh, hcontext, hnoted, hcounted⟩ := fresh_completed hretires hnext rfl last
      rw [hretired, hretire]
      exact .done _ hactive h herrand hperform hcontext (hnoted.trans hstore)
        (hcounted.trans hmetrics) (Or.inr ⟨hempty, hfresh⟩)
    cases operation with
    | save | run | runNow | flush | coordinate =>
        rw [perform_of_lent hactive h rfl herrand, hperform]
        exact .done reply hactive h herrand hperform rfl rfl rfl (Or.inl ⟨hactive, rfl⟩)
    | enable | disable | commit => exact hretires rfl
    | takeKeys =>
        cases herrand
        cases hperform
        have htake : perform .takeKeys t b = (.ok (.keys t.takeKeys.1),
            { t with keys := ∅, coordinator := some c.takeKeys.2 }, b) := by
          simp [perform, takeKeys, h]
        rw [htake]
        exact .done _ hactive h rfl rfl rfl rfl rfl (Or.inl ⟨hactive, rfl⟩)
    | rollback =>
        cases herrand
        cases hperform
        rw [perform, rollback, whileActive_of_active hactive]
        simp only [h]
        refine .done _ hactive h rfl rfl rfl ?_ ?_ (Or.inr ⟨rfl, Or.inl rfl⟩)
        all_goals
          simp only [Coordinator.discard]
          split <;> rfl
    | push | pop => cases herrand

theorem leads_of_no_errand
    (hactive : t.state = .active) (hnone : t.errand? operation = none) (b : Backing σ) :
    Leads operation t b (perform operation t b) := by
  cases operation with
  | push | pop =>
      exact .idle _ (stages_of_no_errand rfl b) rfl rfl rfl (Or.inl ⟨rfl, rfl⟩)
  | enable policy =>
      rcases hpolicy : policy.check with cause | checked
      · exact leads_of_rejected hactive hpolicy b
      · rw [errand?_of_check hpolicy] at hnone
        cases hnone
  | disable | save | run | runNow | flush | coordinate | takeKeys | commit | rollback =>
      cases hnone

/-- The cases of an operation, for a transaction that has no coordinator once it has ended. -/
theorem leads_perform
    (hended : t.state ≠ .active → t.coordinator = none) (operation : Operation) (b : Backing σ) :
    Leads operation t b (perform operation t b) := by
  by_cases hactive : t.state = .active
  · rcases h : t.coordinator with _ | c
    · exact leads_of_none hactive h operation b
    · rcases herrand : t.errand? operation with _ | errand
      · exact leads_of_no_errand hactive herrand b
      · exact leads_of_errand hactive h herrand b
  · rcases hguarded : operation.guarded
    · obtain ⟨answer, next, hperform, hcontext, hstate, hnext⟩ :=
        perform_of_unguarded (hended hactive) hguarded b
      rw [hperform]
      exact .idle answer (stages_of_none (hended hactive) operation b) hcontext rfl rfl
        (Or.inl ⟨hstate, hnext.trans (hended hactive).symm⟩)
    · rw [perform_of_ended hactive hguarded]
      exact .refused hactive

end Cases

/-! ## Reachable transactions -/

/-- The transactions that operations lead to from a new one.  Between two operations the backing may
change in any way. -/
inductive Reachable (ctx : Context) : Transaction → Prop
  | new : Reachable ctx (.new ctx)
  | step {t : Transaction} {σ : Type} [Store σ] (operation : Operation) (b : Backing σ) :
      Reachable ctx t → Reachable ctx (perform operation t b).2.1

/-- The invariant of transactions. -/
structure Sound (ctx : Context) (t : Transaction) : Prop where
  context : t.context = ctx
  /-- A transaction that has ended has let go of its coordinator. -/
  ended : t.state ≠ .active → t.coordinator = none
  reachable : ∀ c, t.coordinator = some c → Coordinator.Reachable ctx c

section Invariant

variable {ctx : Context} {t next : Transaction}

omit [Store σ] in
theorem Sound.of_fresh (hcontext : next.context = ctx) (hfresh : next.Fresh) : Sound ctx next := by
  rcases hfresh with hnone | ⟨hactive, policy, hnew⟩
  · exact ⟨hcontext, fun _ => hnone, by simp [hnone]⟩
  · refine ⟨hcontext, fun hended => absurd hactive hended, ?_⟩
    intro c hc
    rw [hnew, Option.some.injEq] at hc
    rw [← hc]
    exact .new policy

theorem Sound.step (h : Sound ctx t) (operation : Operation) (b : Backing σ) :
    Sound ctx (perform operation t b).2.1 := by
  have hleads := leads_perform h.ended operation b
  generalize perform operation t b = result at hleads ⊢
  -- What an errand has made of the coordinator is reachable, whether or not the errand was done.
  have herrand : ∀ {c d errand answer after}, t.coordinator = some c →
      Coordinator.perform t.context errand c b = (answer, d, after) →
      Coordinator.Reachable ctx d := by
    intro c d errand answer after hc hperform
    have hd : d = (Coordinator.perform ctx errand c b).2.1 := by
      rw [← h.context, hperform]
    rw [hd]
    exact .step errand b (h.reachable c hc)
  cases hleads with
  | refused | rejected | executed => exact h
  | idle answer hstages hcontext hstore hmetrics hcases =>
      rcases hcases with ⟨hstate, hsame⟩ | ⟨-, -, hfresh⟩
      · exact ⟨hcontext.trans h.context, by rw [hstate, hsame]; exact h.ended,
          by rw [hsame]; exact h.reachable⟩
      · exact .of_fresh (hcontext.trans h.context) hfresh
  | failed hactive hc _ hperform =>
      refine ⟨h.context, fun hended => absurd hactive hended, ?_⟩
      intro d hd
      cases hd
      exact herrand hc hperform
  | done answer hactive hc _ hperform hcontext hstore hmetrics hcases =>
      rcases hcases with ⟨hstate, hsame⟩ | ⟨-, hfresh⟩
      · refine ⟨hcontext.trans h.context, fun hended => absurd hstate hended, ?_⟩
        intro d hd
        rw [hsame, Option.some.injEq] at hd
        rw [← hd]
        exact herrand hc hperform
      · exact .of_fresh (hcontext.trans h.context) hfresh

omit [Store σ] in
theorem Reachable.sound (h : Reachable ctx t) : Sound ctx t := by
  induction h with
  | new => exact ⟨rfl, fun _ => rfl, nofun⟩
  | step operation b _ ih => exact ih.step operation b

theorem Reachable.enact (h : Reachable ctx t) (operations : List Operation)
    (b : Backing σ) : Reachable ctx (enact operations (t, b)).1 := by
  induction operations generalizing t b with
  | nil => exact h
  | cons operation rest ih => exact ih (.step operation b h) _

end Invariant

end Cascade.Transaction
