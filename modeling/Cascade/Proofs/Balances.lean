import Cascade.Proofs.Accounts
import Cascade.Proofs.Errands

/-!
# Balances

Transactions that share a recording store and its counters keep their accounts
balanced, whatever is asked of them, in whatever order, and whichever failures
are armed meanwhile.  Every statement of the record is counted once, by the
counters or by the error of the operation in which it was executed; every
request that was queued waits, or it was executed in a flush that succeeded, or
it was wiped.
-/

namespace Cascade.Transaction

open Coordinator (Stage)

def pending (t : Transaction) : Nat :=
  (t.coordinator.map Coordinator.pending).getD 0

/-- An operation, with the transaction and the backing that it met. -/
structure Deed where
  operation : Operation
  transaction : Transaction
  backing : Backing Memory

namespace Deed

def uncounted (deed : Deed) : Nat :=
  Cascade.uncounted (perform deed.operation deed.transaction deed.backing).1

def stages (deed : Deed) : List (Stage Memory) :=
  deed.transaction.stages deed.operation deed.backing

def flushed (deed : Deed) : Nat :=
  sumOf (deed.stages.map (Stage.flushed deed.transaction.context))

def wiped (deed : Deed) : Nat :=
  sumOf (deed.stages.map (Stage.wiped deed.transaction.context))

theorem quiet
    {operation : Operation} {t : Transaction} {b : Backing Memory} (h : t.stages operation b = []) :
    flushed ⟨operation, t, b⟩ = 0 ∧ wiped ⟨operation, t, b⟩ = 0 := by
  rw [flushed, wiped, stages, h]
  exact ⟨rfl, rfl⟩

end Deed

theorem uncounted_map {α β : Type} (f : α → β) (answer : Except WriteError α) :
    uncounted (answer.map f) = uncounted answer := by
  rcases answer with e | a <;> rfl

section Steps

variable {ctx : Context} {t : Transaction}

theorem pending_of_some {c : Coordinator} (h : t.coordinator = some c) : t.pending = c.pending := by
  rw [pending, h]
  rfl

theorem pending_of_fresh (h : t.Fresh) : t.pending = 0 := by
  rcases h with hnone | ⟨-, policy, hnew⟩
  · rw [pending, hnone]
    rfl
  · rw [pending_of_some hnew]
    rfl

theorem Sound.accounts_errand
    (h : Sound ctx t) {c : Coordinator} (hc : t.coordinator = some c) {operation : Operation}
    {errand : Coordinator.Operation} (herrand : t.errand? operation = some errand)
    (b : Backing Memory) :
    (Coordinator.perform t.context errand c b).2.2.metrics.statements +
          Cascade.uncounted (Coordinator.perform t.context errand c b).1 +
          b.store.executed.length =
        (Coordinator.perform t.context errand c b).2.2.store.executed.length +
          b.metrics.statements ∧
      (Coordinator.perform t.context errand c b).2.2.metrics.queued + t.pending =
        b.metrics.queued + (Coordinator.perform t.context errand c b).2.1.pending +
          Deed.flushed ⟨operation, t, b⟩ + Deed.wiped ⟨operation, t, b⟩ := by
  have hreachable := h.reachable c hc
  rw [← h.context] at hreachable
  have hstages : Deed.stages ⟨operation, t, b⟩ = Coordinator.stages t.context errand c b :=
    stages_of_errand hc herrand b
  rw [pending_of_some hc, Deed.flushed, Deed.wiped, hstages]
  exact hreachable.accounts errand b

theorem Sound.accounts (h : Sound ctx t) (operation : Operation) (b : Backing Memory) :
    (perform operation t b).2.2.metrics.statements + Deed.uncounted ⟨operation, t, b⟩ +
          b.store.executed.length =
        (perform operation t b).2.2.store.executed.length + b.metrics.statements ∧
      (perform operation t b).2.2.metrics.queued + t.pending =
        b.metrics.queued + (perform operation t b).2.1.pending + Deed.flushed ⟨operation, t, b⟩ +
          Deed.wiped ⟨operation, t, b⟩ := by
  have hleads := leads_perform h.ended operation b
  simp only [Deed.uncounted]
  generalize perform operation t b = result at hleads ⊢
  cases hleads with
  | refused hended =>
      obtain ⟨hflushed, hwiped⟩ := Deed.quiet (stages_of_none (h.ended hended) operation b)
      rw [hflushed, hwiped]
      exact ⟨Nat.add_comm _ _, rfl⟩
  | rejected policy cause hactive hoperation hpolicy =>
      subst hoperation
      obtain ⟨hflushed, hwiped⟩ :=
        Deed.quiet (stages_of_no_errand (errand?_of_rejected hpolicy t) b)
      rw [hflushed, hwiped]
      exact ⟨Nat.add_comm _ _, rfl⟩
  | @idle answer next last hstages hcontext hstore hmetrics hcases =>
      obtain ⟨hflushed, hwiped⟩ := Deed.quiet hstages
      have hpending : next.pending = t.pending := by
        rcases hcases with ⟨-, hsame⟩ | ⟨-, hnone, hfresh⟩
        · rw [pending, hsame]
          rfl
        · rw [pending_of_fresh hfresh, pending_of_fresh (Or.inl hnone)]
      simp only [hflushed, hwiped, hpending, hstore, hmetrics]
      exact ⟨Nat.add_comm _ _, rfl⟩
  | executed request hactive hnone hrequest =>
      obtain ⟨hflushed, hwiped⟩ := Deed.quiet (stages_of_none hnone operation b)
      obtain ⟨hstatements, hqueued⟩ :=
        Backing.accounts_executeNow t.context.registry true request b
      rw [hflushed, hwiped, uncounted_map]
      exact ⟨hstatements, congrArg (· + t.pending) hqueued⟩
  | failed hactive hc herrand hperform =>
      have haccounts := h.accounts_errand hc herrand b
      rw [hperform] at haccounts
      exact haccounts
  | @done answer c d errand reply after last next hactive hc herrand hperform hcontext hstore
      hmetrics hcases =>
      have haccounts := h.accounts_errand hc herrand b
      have hpending : next.pending = d.pending := by
        rcases hcases with ⟨-, hsame⟩ | ⟨hempty, hfresh⟩
        · exact pending_of_some hsame
        · rw [pending_of_fresh hfresh, Coordinator.pending_eq_zero_of_isEmpty hempty]
      rw [hperform] at haccounts
      rw [hstore, hmetrics, hpending]
      exact haccounts

end Steps

/-! ## Shared runs -/

/-- A run of transactions that share a recording store and its counters, both of them new at the
beginning: the operations so far, the transactions and the backing.  At any time a transaction may
begin, an operation may be asked of one that has begun, and a failure may be armed or disarmed. -/
inductive Shared : List Deed → List Transaction → Backing Memory → Prop
  | new : Shared [] [] { store := {} }
  | enter {deeds : List Deed} {ts : List Transaction} {b : Backing Memory} (ctx : Context) :
      Shared deeds ts b → Shared deeds (ts ++ [.new ctx]) b
  | perform {deeds : List Deed} {front back : List Transaction} {t : Transaction}
      {b : Backing Memory} (operation : Operation) : Shared deeds (front ++ t :: back) b →
        Shared (deeds ++ [⟨operation, t, b⟩]) (front ++ (perform operation t b).2.1 :: back)
          (perform operation t b).2.2
  | arm {deeds : List Deed} {ts : List Transaction} {b : Backing Memory} (failAt : Option Nat) :
      Shared deeds ts b → Shared deeds ts { b with store := { b.store with failAt := failAt } }

section Runs

variable {deeds : List Deed} {ts : List Transaction} {b : Backing Memory}

theorem Shared.sound (h : Shared deeds ts b) : ∀ t ∈ ts, Sound t.context t := by
  induction h with
  | new => exact List.forall_mem_nil _
  | enter ctx _ ih =>
      intro t hmem
      rcases List.mem_append.1 hmem with hmem | hmem
      · exact ih t hmem
      · rw [List.mem_singleton.1 hmem]
        exact Reachable.new.sound
  | @perform deeds front back t b operation _ ih =>
      intro other hmem
      rcases List.mem_append.1 hmem with hmem | hmem
      · exact ih other (List.mem_append_left _ hmem)
      · rcases List.mem_cons.1 hmem with rfl | hmem
        · have hnext := (ih t (by simp)).step operation b
          rw [hnext.context]
          exact hnext
        · exact ih other (by simp [hmem])
  | arm _ _ ih => exact ih

/-- The accounts of a shared run add up.  The statements that the counters count and those that the
returned errors count are the statements of the record.  The requests that were queued are those
that were executed in flushes that succeeded, those that wait, and those that were wiped. -/
theorem accounts_add_up (h : Shared deeds ts b) :
    b.metrics.statements + sumOf (deeds.map Deed.uncounted) = b.store.executed.length ∧
      b.metrics.queued = sumOf (deeds.map Deed.flushed) + sumOf (ts.map pending) +
        sumOf (deeds.map Deed.wiped) := by
  induction h with
  | new => exact ⟨rfl, rfl⟩
  | enter ctx _ ih =>
      have hnone : pending (.new ctx) = 0 := rfl
      simpa only [List.map_append, List.map_cons, List.map_nil, sumOf_append, sumOf, hnone,
        Nat.add_zero] using ih
  | @perform deeds front back t b operation hshared ih =>
      obtain ⟨hstatements, hqueued⟩ := (hshared.sound t (by simp)).accounts operation b
      simp only [List.map_append, List.map_cons, List.map_nil, sumOf_append, sumOf] at ih ⊢
      omega
  | arm failAt _ ih => exact ih

/-- Ask a transaction for one operation after the other. -/
def deedsOf : List Operation → Transaction × Backing Memory →
    List Deed × Transaction × Backing Memory
  | [], now => ([], now)
  | operation :: rest, (t, b) =>
      let (deeds, last) := deedsOf rest (perform operation t b).2
      (⟨operation, t, b⟩ :: deeds, last)

theorem Shared.deedsOf
    {t : Transaction} (operations : List Operation) (h : Shared deeds [t] b) :
    Shared (deeds ++ (deedsOf operations (t, b)).1) [(deedsOf operations (t, b)).2.1]
      (deedsOf operations (t, b)).2.2 := by
  induction operations generalizing deeds t b with
  | nil => simpa [Transaction.deedsOf] using h
  | cons operation rest ih =>
      have hfirst := ih (@Shared.perform deeds [] [] t b operation h)
      rw [List.append_assoc] at hfirst
      exact hfirst

/-- Two statements of one text are buffered and flushed, over a store that refuses the second. -/
def failing : List Deed × Transaction × Backing Memory :=
  deedsOf [.enable {}, .run ⟨"x", []⟩, .run ⟨"x", []⟩, .flush]
    (.new ⟨.empty, "t", false⟩, { store := { failAt := some 2 } })

theorem shared_failing : Shared failing.1 [failing.2.1] failing.2.2 :=
  Shared.deedsOf [.enable {}, .run ⟨"x", []⟩, .run ⟨"x", []⟩, .flush]
    (.arm (some 2) (.enter ⟨.empty, "t", false⟩ .new))

/-- The first statement is on the record and counted by the error alone; both requests are wiped. -/
theorem accounts_add_up_of_failing :
    Shared failing.1 [failing.2.1] failing.2.2 ∧
      failing.2.2.metrics = { queued := 2, flushFailures := 1 } ∧
      failing.2.2.store.executed.length = 1 ∧ sumOf (failing.1.map Deed.wiped) = 2 ∧
      failing.2.2.metrics.statements + sumOf (failing.1.map Deed.uncounted) =
        failing.2.2.store.executed.length ∧
      failing.2.2.metrics.queued = sumOf (failing.1.map Deed.flushed) +
        sumOf ([failing.2.1].map pending) + sumOf (failing.1.map Deed.wiped) :=
  ⟨shared_failing, rfl, rfl, rfl, accounts_add_up shared_failing⟩

end Runs

end Cascade.Transaction
