import Cascade.Proofs.Flushes
import Cascade.Proofs.Stages
import Cascade.Transaction

/-!
# Operations of transactions

An operation of an active transaction is passed on to its coordinator as an
errand.  Most operations lend the coordinator out: it stays, whatever has become
of the errand.  An operation that has to let go of it flushes it, and goes on
only if the flush succeeds.  A transaction that has ended refuses all of these.
-/

namespace Cascade.Transaction

open Coordinator (Stage)

variable {σ : Type}

/-! ## What is asked -/

/-- What can be asked of a transaction.  Its coordinator, if it has one, can also be asked
directly. -/
inductive Operation where
  | enable (policy : Policy)
  | disable
  | save (record : Record)
  | run (statement : Statement)
  | runNow (statement : Statement)
  | flush
  | coordinate (operation : Coordinator.Operation)
  | push
  | pop
  | takeKeys
  | commit
  | rollback

/-- Let the coordinator of a transaction perform an operation; without one nothing happens. -/
def coordinate [Store σ] (operation : Coordinator.Operation) (t : Transaction) (b : Backing σ) :
    Step Transaction σ Coordinator.Reply :=
  match t.coordinator with
  | some c => t.lift (Coordinator.perform t.context operation c b)
  | none => (.ok .done, t, b)

def perform [Store σ] (operation : Operation) (t : Transaction) (b : Backing σ) :
    Step Transaction σ Coordinator.Reply :=
  match operation with
  | .enable policy => (t.enableBatching policy b).andThen (fun _ t b => (.ok .done, t, b))
  | .disable => (t.disableBatching b).andThen (fun _ t b => (.ok .done, t, b))
  | .save record => (t.save record b).andThen (fun outcome t b => (.ok (.outcome outcome), t, b))
  | .run statement =>
      (t.run statement b).andThen (fun outcome t b => (.ok (.outcome outcome), t, b))
  | .runNow statement =>
      (t.runNow statement b).andThen (fun outcome t b => (.ok (.outcome outcome), t, b))
  | .flush => (t.flush b).andThen (fun totals t b => (.ok (.totals totals), t, b))
  | .coordinate operation => t.coordinate operation b
  | .push => (.ok .done, t.push, b)
  | .pop => (.ok .done, t.pop, b)
  | .takeKeys => (.ok (.keys t.takeKeys.1), t.takeKeys.2, b)
  | .commit => (t.commit b).andThen (fun _ t b => (.ok .done, t, b))
  | .rollback => (t.rollback b).andThen (fun _ t b => (.ok .done, t, b))

/-- What an operation asks of the coordinator of an active transaction.

A rollback clears it, and whatever lets go of it flushes it first. -/
def errand? (t : Transaction) : Operation → Option Coordinator.Operation
  | .enable policy =>
      match policy.check with
      | .ok _ => some (.flush false)
      | .error _ => none
  | .disable | .flush | .commit => some (.flush false)
  | .save record => some (.submit (.record (record.withDepth t.depth)) true)
  | .run statement => some (.submit (.statement statement) true)
  | .runNow statement => some (.submit (.statement statement) false)
  | .coordinate operation => some operation
  | .takeKeys => some .takeKeys
  | .rollback => some .clear
  | .push | .pop => none

theorem errand?_of_check
    {policy checked : Policy} (h : policy.check = .ok checked) (t : Transaction) :
    t.errand? (.enable policy) = some (.flush false) := by
  simp [errand?, h]

theorem errand?_of_rejected
    {policy : Policy} {cause : PolicyError} (h : policy.check = .error cause) (t : Transaction) :
    t.errand? (.enable policy) = none := by
  simp [errand?, h]

/-- The stages of an operation, all of them stages of the coordinator. -/
def stages [Store σ] (operation : Operation) (t : Transaction) (b : Backing σ) : List (Stage σ) :=
  match t.coordinator, t.errand? operation with
  | some c, some errand => Coordinator.stages t.context errand c b
  | _, _ => []

/-- Whether an operation is nothing but its errand: the coordinator stays, whatever has become of
it. -/
def Operation.lends : Operation → Bool
  | .save _ | .run _ | .runNow _ | .flush | .coordinate _ => true
  | .enable _ | .disable | .push | .pop | .takeKeys | .commit | .rollback => false

/-- Whether an operation has to let go of the coordinator that is there. -/
def Operation.retires : Operation → Bool
  | .enable _ | .disable | .commit => true
  | .save _ | .run _ | .runNow _ | .flush | .coordinate _ | .push | .pop | .takeKeys
  | .rollback => false

/-- What an operation does once it has let go of the coordinator. -/
def Operation.completed (operation : Operation) (t : Transaction) (b : Backing σ) :
    Transaction × Backing σ :=
  match operation with
  | .enable policy => ({ t with coordinator := some (.new policy) }, b)
  | .commit => ({ t with state := .committed }, b.note (.committed t.context.transaction))
  | _ => (t, b)

/-! ## Composed steps -/

theorem andThen_pure_snd {γ τ α β : Type} (step : Step γ τ α) (answer : α → β) :
    (step.andThen (fun a owner b => (.ok (answer a), owner, b))).2 = step.2 := by
  rcases step with ⟨e | a, owner, b⟩ <;> rfl

theorem eq_error_of_andThen {γ τ α β : Type} {step : Step γ τ α} {answer : α → β}
    {e : WriteError} {owner : γ} {after : Backing τ}
    (h : step.andThen (fun a owner b => (.ok (answer a), owner, b)) = (.error e, owner, after)) :
    step = (.error e, owner, after) := by
  rcases step with ⟨e' | a, owner', after'⟩
  all_goals
    cases h
  rfl

theorem lift_andThen {α β : Type} (t : Transaction) (step : Step Coordinator σ α) (answer : α → β) :
    (t.lift step).andThen (fun a t b => (.ok (answer a), t, b)) =
      t.lift (step.andThen (fun a c b => (.ok (answer a), c, b))) := by
  rcases step with ⟨e | a, c, b⟩ <;> rfl

section Operations

variable [Store σ] {t : Transaction} {operation : Operation} {b : Backing σ}

omit [Store σ] in
theorem whileActive_of_active {α : Type}
    (hactive : t.state = .active) (b : Backing σ)
    (action : Transaction → Backing σ → Step Transaction σ α) :
    t.whileActive b action = action t b := by
  rw [whileActive, hactive]

omit [Store σ] in
theorem whileActive_of_ended {α : Type}
    (hended : t.state ≠ .active) (b : Backing σ)
    (action : Transaction → Backing σ → Step Transaction σ α) :
    t.whileActive b action = (.error .discarded, t, b) := by
  rw [whileActive]
  split
  · next hactive => exact absurd hactive hended
  · rfl

/-- Whether an operation is refused by a transaction that has ended. -/
def Operation.guarded : Operation → Bool
  | .enable _ | .disable | .save _ | .run _ | .runNow _ | .flush | .commit | .rollback => true
  | .coordinate _ | .push | .pop | .takeKeys => false

theorem perform_of_ended
    (hended : t.state ≠ .active) (hguarded : operation.guarded = true) (b : Backing σ) :
    perform operation t b = (.error .discarded, t, b) := by
  cases operation with
  | enable policy =>
      rw [perform, enableBatching, whileActive_of_ended hended]
      rfl
  | disable =>
      rw [perform, disableBatching, whileActive_of_ended hended]
      rfl
  | save record =>
      rw [perform, save, whileActive_of_ended hended]
      rfl
  | run statement =>
      rw [perform, run, whileActive_of_ended hended]
      rfl
  | runNow statement =>
      rw [perform, runNow, whileActive_of_ended hended]
      rfl
  | flush =>
      rw [perform, flush, whileActive_of_ended hended]
      rfl
  | commit =>
      rw [perform, commit, whileActive_of_ended hended]
      rfl
  | rollback =>
      rw [perform, rollback, whileActive_of_ended hended]
      rfl
  | coordinate | push | pop | takeKeys => cases hguarded

/-- An operation that is not refused asks for nothing where there is no coordinator. -/
theorem perform_of_unguarded
    (hnone : t.coordinator = none) (hguarded : operation.guarded = false) (b : Backing σ) :
    ∃ answer next, perform operation t b = (.ok answer, next, b) ∧ next.context = t.context ∧
      next.state = t.state ∧ next.coordinator = none := by
  cases operation with
  | coordinate errand =>
      refine ⟨.done, t, ?_, rfl, rfl, hnone⟩
      rw [perform, coordinate, hnone]
  | push | pop => exact ⟨_, _, rfl, rfl, rfl, hnone⟩
  | takeKeys =>
      refine ⟨.keys t.keys, { t with keys := ∅ }, ?_, rfl, rfl, hnone⟩
      simp [perform, takeKeys, hnone]
  | enable | disable | save | run | runNow | flush | commit | rollback => cases hguarded

theorem stages_of_none (hnone : t.coordinator = none) (operation : Operation) (b : Backing σ) :
    t.stages operation b = [] := by
  simp [stages, hnone]

theorem stages_of_errand
    {c : Coordinator} {errand : Coordinator.Operation} (h : t.coordinator = some c)
    (herrand : t.errand? operation = some errand) (b : Backing σ) :
    t.stages operation b = Coordinator.stages t.context errand c b := by
  simp [stages, h, herrand]

theorem stages_of_no_errand (herrand : t.errand? operation = none) (b : Backing σ) :
    t.stages operation b = [] := by
  simp [stages, herrand]

/-! ## Letting go of the coordinator -/

theorem retire_of_none (h : t.coordinator = none) (b : Backing σ) :
    t.retire b = (.ok (), t, b) := by
  rw [retire, h]

theorem retire_of_failed_flush
    {c : Coordinator} {b : Backing σ} {e : WriteError} (h : t.coordinator = some c)
    (hfail : (c.flushWith t.context false b).1 = .error e) :
    t.retire b = (.error e, { t with coordinator := some (c.flushWith t.context false b).2.1 },
      (c.flushWith t.context false b).2.2) := by
  unfold retire
  rw [h]
  simp only [Coordinator.flush]
  rcases hflush : c.flushWith t.context false b with ⟨e' | totals, after, last⟩
  all_goals
    rw [hflush] at hfail
    cases hfail
  rfl

theorem retire_of_flush
    {c : Coordinator} {b : Backing σ} {totals : Totals} (h : t.coordinator = some c)
    (hok : (c.flushWith t.context false b).1 = .ok totals) :
    (t.retire b).1 = .ok () ∧
      (∃ keys, (t.retire b).2.1 = { t with coordinator := none, keys := keys }) ∧
      (t.retire b).2.2.store = (c.flushWith t.context false b).2.2.store := by
  unfold retire
  rw [h]
  simp only [Coordinator.flush]
  rcases hflush : c.flushWith t.context false b with ⟨e' | totals, after, last⟩
  all_goals
    rw [hflush] at hok
    cases hok
  refine ⟨rfl, ⟨_, rfl⟩, ?_⟩
  simp only [Coordinator.discard]
  split <;> rfl

/-! ## Errands -/

def carried (errand : Coordinator.Operation) (t : Transaction) (c : Coordinator) (b : Backing σ) :
    Transaction × Backing σ :=
  ({ t with coordinator := some (Coordinator.perform t.context errand c b).2.1 },
    (Coordinator.perform t.context errand c b).2.2)

theorem perform_of_lent
    {c : Coordinator} {errand : Coordinator.Operation} (hactive : t.state = .active)
    (h : t.coordinator = some c) (hlends : operation.lends = true)
    (herrand : t.errand? operation = some errand) (b : Backing σ) :
    perform operation t b = t.lift (Coordinator.perform t.context errand c b) := by
  cases operation with
  | save record =>
      cases herrand
      rw [perform, save, whileActive_of_active hactive]
      simp only [h]
      exact lift_andThen t _ _
  | run statement =>
      cases herrand
      rw [perform, run, whileActive_of_active hactive]
      simp only [h]
      exact lift_andThen t _ _
  | runNow statement =>
      cases herrand
      rw [perform, runNow, whileActive_of_active hactive]
      simp only [h]
      exact lift_andThen t _ _
  | flush =>
      cases herrand
      rw [perform, flush, whileActive_of_active hactive]
      simp only [h]
      exact lift_andThen t _ _
  | coordinate operation =>
      cases herrand
      simp only [perform, coordinate, h]
  | enable | disable | push | pop | takeKeys | commit | rollback => cases hlends

theorem carried_of_lent
    {c : Coordinator} {errand : Coordinator.Operation} (hactive : t.state = .active)
    (h : t.coordinator = some c) (hlends : operation.lends = true)
    (herrand : t.errand? operation = some errand) (b : Backing σ) :
    (perform operation t b).2 = t.carried errand c b := by
  rw [perform_of_lent hactive h hlends herrand]
  rfl

theorem perform_of_rejected
    {policy : Policy} {cause : PolicyError} (hactive : t.state = .active)
    (hpolicy : policy.check = .error cause) (b : Backing σ) :
    perform (.enable policy) t b = (.error (.policy cause), t, b) := by
  rw [perform, enableBatching, whileActive_of_active hactive, hpolicy]
  rfl

/-- An operation that has to let go of the coordinator is completed once this has succeeded. -/
theorem perform_of_retired
    {errand : Coordinator.Operation} (hactive : t.state = .active)
    (hretires : operation.retires = true) (herrand : t.errand? operation = some errand)
    (b : Backing σ) :
    errand = .flush false ∧ perform operation t b =
      (t.retire b).andThen (fun _ t b => (.ok .done, operation.completed t b)) := by
  cases operation with
  | enable policy =>
      rcases hpolicy : policy.check with cause | checked
      · rw [errand?_of_rejected hpolicy] at herrand
        cases herrand
      · rw [errand?_of_check hpolicy] at herrand
        cases herrand
        refine ⟨rfl, ?_⟩
        rw [perform, enableBatching, whileActive_of_active hactive, hpolicy,
          Policy.eq_of_check hpolicy]
        rcases t.retire b with ⟨e | _, next, after⟩ <;> rfl
  | disable =>
      cases herrand
      rw [perform, disableBatching, whileActive_of_active hactive]
      exact ⟨rfl, rfl⟩
  | commit =>
      cases herrand
      rw [perform, commit, whileActive_of_active hactive]
      refine ⟨rfl, ?_⟩
      rcases t.retire b with ⟨e | _, next, after⟩ <;> rfl
  | save | run | runNow | flush | coordinate | push | pop | takeKeys | rollback => cases hretires

theorem enable_of_none (h : t.coordinator = none) (policy : Policy) (b : Backing σ) :
    (∃ e, perform (.enable policy) t b = (.error e, t, b)) ∨
      t.state = .active ∧ perform (.enable policy) t b =
        (.ok .done, { t with coordinator := some (.new policy) }, b) := by
  by_cases hactive : t.state = .active
  · rcases hpolicy : policy.check with cause | checked
    · exact Or.inl ⟨_, perform_of_rejected hactive hpolicy b⟩
    · obtain ⟨-, hperform⟩ := perform_of_retired hactive rfl (errand?_of_check hpolicy t) b
      rw [hperform, retire_of_none h]
      exact Or.inr ⟨hactive, rfl⟩
  · exact Or.inl ⟨_, perform_of_ended hactive rfl b⟩

/-- An operation whose errand fails leaves the transaction active, with the coordinator that the
errand left. -/
theorem perform_of_failed_errand
    {c d : Coordinator} {errand : Coordinator.Operation} {e : WriteError} {after : Backing σ}
    (hactive : t.state = .active) (h : t.coordinator = some c)
    (herrand : t.errand? operation = some errand)
    (hfail : Coordinator.perform t.context errand c b = (.error e, d, after)) :
    perform operation t b = (.error e, { t with coordinator := some d }, after) := by
  cases operation with
  | save | run | runNow | flush | coordinate =>
      rw [perform_of_lent hactive h rfl herrand, hfail]
      rfl
  | enable | disable | commit =>
      obtain ⟨rfl, hperform⟩ := perform_of_retired hactive rfl herrand b
      have hflush : c.flushWith t.context false b = (.error e, d, after) :=
        eq_error_of_andThen hfail
      have hfirst : (c.flushWith t.context false b).1 = .error e := by rw [hflush]
      rw [hperform, retire_of_failed_flush h hfirst, hflush]
      rfl
  | takeKeys | rollback =>
      cases herrand
      cases hfail
  | push | pop => cases herrand

end Operations

end Cascade.Transaction
