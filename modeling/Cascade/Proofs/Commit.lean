import Cascade.Proofs.Chronicle
import Cascade.Store.Memory

/-!
# What a commit promises

A transaction that has committed has executed every write that it accepted
into a buffer, as long as no flush failed before.  A failed flush takes what is
buffered with it and leaves the transaction active, so that a commit succeeds
all the same.
-/

namespace Cascade

namespace Coordinator

variable {σ : Type}

namespace Stage

/-- The parcels that a stage sends in calls that the store accepts. -/
def executed [Store σ] (registry : Registry) (stage : Stage σ) : List Parcel :=
  ((stage.attempts registry).filter (fun attempt => attempt.refusal.isNone)).flatMap
    (fun attempt => attempt.group.parcels)

/-- The parcels that a stage takes out of a buffer although no call that holds them is accepted. -/
def lost [Store σ] (registry : Registry) (stage : Stage σ) : List Parcel :=
  ((stage.attempts registry).filter (fun attempt => !attempt.refusal.isNone)).flatMap
    (fun attempt => attempt.group.parcels) ++ stage.dropped registry

end Stage

def executed [Store σ] (registry : Registry) (history : List (Stage σ)) : List Parcel :=
  history.flatMap (Stage.executed registry)

def lost [Store σ] (registry : Registry) (history : List (Stage σ)) : List Parcel :=
  history.flatMap (Stage.lost registry)

section Losses

variable [Store σ] {ctx : Context}

theorem Stage.sent_perm (registry : Registry) (stage : Stage σ) :
    ((stage.attempts registry).flatMap (fun attempt => attempt.group.parcels) ++
        stage.dropped registry).Perm (stage.executed registry ++ stage.lost registry) := by
  have hsplit := List.filter_append_perm (fun attempt : Attempt => attempt.refusal.isNone)
    (stage.attempts registry)
  have hparcels := hsplit.symm.flatMap_right (fun attempt : Attempt => attempt.group.parcels)
  rw [List.flatMap_append] at hparcels
  rw [Stage.executed, Stage.lost, ← List.append_assoc]
  exact hparcels.append_right _

theorem Closed.accounted {history : List (Stage σ)} (h : Closed ctx history) :
    (acceptedParcels ctx.registry history).Perm
      (executed ctx.registry history ++ lost ctx.registry history) := by
  refine h.balanced.trans ?_
  clear h
  induction history with
  | nil => exact List.Perm.refl _
  | cons stage rest ih =>
      have hstage := stage.sent_perm ctx.registry
      rw [List.perm_iff_count] at hstage ih ⊢
      intro parcel
      have hhead := hstage parcel
      have hrest := ih parcel
      simp only [sent, attempts, dropped, executed, lost, ← List.flatMap_def, List.flatMap_cons,
        List.flatMap_append, List.count_append] at hhead hrest ⊢
      omega

/-- A stage loses something exactly if its flush fails or its clear meets something that waits. -/
theorem Stage.Ready.lost_ne_nil_iff {stage : Stage σ} (h : stage.Ready ctx.registry) :
    stage.lost ctx.registry ≠ [] ↔ stage.Loses ctx := by
  cases stage with
  | flush reset c b =>
      rcases flushWith_cases ctx reset h b with
        ⟨totals, hattempted, hok, -, -⟩ | ⟨sent, refused, rest, e, hcalls, hattempted, hfail, -⟩
      · have hnone : (Stage.flush reset c b).lost ctx.registry = [] := by
          simp [Stage.lost, Stage.dropped, Stage.attempts, hattempted, StatementGroup.accepted]
        have hnot : ¬(Stage.flush reset c b).Loses ctx := by
          rintro ⟨e, hfail⟩
          rw [hok] at hfail
          cases hfail
        simp [hnone, hnot]
      · have hloses : (Stage.flush reset c b).Loses ctx := ⟨_, hfail⟩
        have hwaiting : refused.waiting ≠ [] := h.call_waiting refused (by simp [hcalls])
        have hlost : (Stage.flush reset c b).lost ctx.registry ≠ [] := by
          simp [Stage.lost, Stage.attempts, hattempted, StatementGroup.parcels, hwaiting]
        simp [hlost, hloses]
  | clear c =>
      rw [Stage.Loses, ← length_parcels ctx.registry h]
      simp [Stage.lost, Stage.attempts, Stage.dropped]
  | number | queue | force | execute | adjust =>
      constructor
      · intro hlost
        exact absurd rfl hlost
      · intro hloses
        cases hloses

/-- Every accepted write of a closed history was executed exactly if no stage loses anything. -/
theorem Closed.executed_iff {history : List (Stage σ)} (h : Closed ctx history) :
    (acceptedParcels ctx.registry history).Perm (executed ctx.registry history) ↔
      ∀ stage ∈ history, ¬stage.Loses ctx := by
  have haccounted := h.accounted
  have hlost : lost ctx.registry history = [] ↔ ∀ stage ∈ history, ¬stage.Loses ctx := by
    rw [lost, List.flatMap_eq_nil_iff]
    constructor
    · intro hnone stage hmem hloses
      exact (h.ready stage hmem).lost_ne_nil_iff.2 hloses (hnone stage hmem)
    · intro hnone stage hmem
      by_contra hlost
      exact hnone stage hmem ((h.ready stage hmem).lost_ne_nil_iff.1 hlost)
  rw [← hlost]
  constructor
  · intro hperm
    have hlength := haccounted.length_eq
    rw [hperm.length_eq, List.length_append] at hlength
    exact List.length_eq_zero_iff.1 (by omega)
  · intro hnone
    rw [hnone, List.append_nil] at haccounted
    exact haccounted

theorem statements_accepted (registry : Registry) (history : List (Stage σ)) :
    ((history.flatMap (Stage.calls registry)).filter (fun sight => sight.refusal.isNone)).flatMap
        (fun sight => sight.call.statements) =
      (executed registry history).map Parcel.statement := by
  induction history with
  | nil => rfl
  | cons stage rest ih =>
      have hstage : ((stage.calls registry).filter (fun sight => sight.refusal.isNone)).flatMap
          (fun sight => sight.call.statements) =
            (stage.executed registry).map Parcel.statement := by
        cases stage with
        | flush reset c b =>
            simp only [Stage.calls, Stage.executed, List.filter_map, List.flatMap_map,
              List.map_flatMap]
            congr 1
            funext attempt
            exact attempt.group.statements_call c.policy.fetchKeys
        | number | queue | force | execute | clear | adjust => rfl
      rw [List.flatMap_cons, List.filter_append, List.flatMap_append, hstage, ih, executed,
        executed, List.flatMap_cons, List.map_append]

end Losses

end Coordinator

namespace Transaction

open Coordinator (Stage Closed)

variable {σ : Type} [Store σ] {ctx : Context} {k : Chronicle (Watched σ)} {t : Transaction}
  {b : Backing (Watched σ)}

theorem commit_of_retired
    {b : Backing σ} (hactive : t.state = .active) (hok : (t.retire b).1 = .ok ()) :
    (perform .commit t b).1 = .ok .done ∧ (perform .commit t b).2.1.state = .committed ∧
      (perform .commit t b).2.2.store = (t.retire b).2.2.store := by
  rw [perform, commit, whileActive_of_active hactive]
  rcases hretire : t.retire b with ⟨e | _, next, after⟩
  all_goals rw [hretire] at hok
  · cases hok
  · exact ⟨rfl, rfl, rfl⟩

/-- A transaction whose coordinator was wiped commits at once, without a call. -/
theorem commit_of_wiped
    {d : Coordinator} (hactive : t.state = .active) (h : t.coordinator = some d.wiped)
    (b : Backing σ) :
    (perform .commit t b).1 = .ok .done ∧ (perform .commit t b).2.1.state = .committed ∧
      (perform .commit t b).2.2.store = b.store := by
  have hflush : (d.wiped.flushWith t.context false b).1 = .ok {} := rfl
  obtain ⟨hok, -, hstore⟩ := retire_of_flush h hflush
  obtain ⟨hcommit, hstate, hafter⟩ := commit_of_retired hactive hok
  exact ⟨hcommit, hstate, hafter.trans hstore⟩

/-- An operation in which a flush fails leaves the transaction active, with an empty coordinator. -/
theorem Owned.fails
    {c d : Coordinator} (h : Owned ctx k t c b) {operation : Operation} {reset : Bool}
    {begun : Backing (Watched σ)} {e : WriteError}
    (hmem : .flush reset d begun ∈ t.stages operation b)
    (hfail : (d.flushWith ctx reset begun).1 = .error e) :
    ∃ next after, perform operation t b = (.error e, next, after) ∧ next.state = .active ∧
      next.coordinator = some d.wiped := by
  rcases herrand : t.errand? operation with _ | errand
  · simp [stages, h.coordinator, herrand] at hmem
  · have hstages : t.stages operation b = Coordinator.stages ctx errand c b := by
      simp [stages, h.coordinator, herrand, h.context]
    rw [hstages] at hmem
    have hwiped : (d.flushWith ctx reset begun).2.1 = d.wiped := by
      rw [Coordinator.coordinator_flushWith, hfail]
    have herror : Coordinator.perform t.context errand c b =
        (.error e, d.wiped, (d.flushWith ctx reset begun).2.2) := by
      rw [h.context, Coordinator.perform_of_failed_flush ctx hmem hfail, ← hwiped]
    exact ⟨_, _, perform_of_failed_errand h.active h.coordinator herrand herror, h.active, rfl⟩

theorem state_of_commit {b : Backing σ} (h : (perform .commit t b).1 = .ok .done) :
    (perform .commit t b).2.1.state = .committed := by
  by_cases hactive : t.state = .active
  · rw [perform, commit, whileActive_of_active hactive] at h ⊢
    rcases hretire : t.retire b with ⟨e | _, next, after⟩
    all_goals
      rw [hretire] at h
    · cases h
    · rfl
  · rw [perform_of_ended hactive rfl] at h
    cases h

/-- A commit that succeeds has executed every write that the transaction accepted into a buffer
exactly if none of its flushes failed and its coordinator was never cleared while something waited.

A failed flush does not prevent a commit: the operation in which it happens fails, and a commit
right after it succeeds without a call. -/
theorem committed_iff (h : Life ctx k t b) :
    ((perform .commit t b).1 = .ok .done →
      (∀ epoch ∈ (t.record .commit b k).epochs,
        ((Coordinator.accepted epoch).map Prod.fst).Nodup) ∧
      ((batches (perform .commit t b).2.2.store.seen).filter
          (fun sight => sight.refusal.isNone)).flatMap (fun sight => sight.call.statements) =
        (Coordinator.executed ctx.registry (t.record .commit b k).epochs.flatten).map
          Parcel.statement ∧
      ((∀ epoch ∈ (t.record .commit b k).epochs,
          (Coordinator.acceptedParcels ctx.registry epoch).Perm
            (Coordinator.executed ctx.registry epoch)) ↔
        ∀ epoch ∈ (t.record .commit b k).epochs, ∀ stage ∈ epoch, ¬stage.Loses ctx)) ∧
    (∀ operation reset c begun e, .flush reset c begun ∈ t.stages operation b →
      (c.flushWith ctx reset begun).1 = .error e →
        (perform operation t b).1 = .error e ∧
        (perform .commit (perform operation t b).2.1 (perform operation t b).2.2).1 = .ok .done ∧
        (perform .commit (perform operation t b).2.1 (perform operation t b).2.2).2.2.store =
          (perform operation t b).2.2.store) := by
  constructor
  · intro hok
    rcases (Life.perform .commit h).kept with hbare | ⟨c, howned⟩
    · refine ⟨fun epoch hmem => (hbare.closed epoch hmem).numbered, ?_, ?_⟩
      · rw [hbare.called, calls_eq]
        exact Coordinator.statements_accepted ctx.registry _
      · constructor
        · intro hperm epoch hmem
          exact (hbare.closed epoch hmem).executed_iff.1 (hperm epoch hmem)
        · intro hloses epoch hmem
          exact (hbare.closed epoch hmem).executed_iff.2 (hloses epoch hmem)
    · have hactive := howned.active
      rw [state_of_commit hok] at hactive
      cases hactive
  · intro operation reset d begun e hmem hfail
    rcases h.kept with hbare | ⟨c, howned⟩
    · rw [stages, hbare.coordinator] at hmem
      cases hmem
    · obtain ⟨next, after, hperform, hactive, hwiped⟩ := howned.fails hmem hfail
      obtain ⟨hok, -, hstore⟩ := commit_of_wiped hactive hwiped after
      rw [hperform]
      exact ⟨rfl, hok, hstore⟩

def performAll : List Operation → Chronicle σ × Transaction × Backing σ →
    Chronicle σ × Transaction × Backing σ
  | [], now => now
  | operation :: rest, (k, t, b) =>
      performAll rest (t.record operation b k, (perform operation t b).2)

theorem Life.performAll (operations : List Operation) (h : Life ctx k t b) :
    Life ctx (performAll operations (k, t, b)).1 (performAll operations (k, t, b)).2.1
      (performAll operations (k, t, b)).2.2 := by
  induction operations generalizing k t b with
  | nil => exact h
  | cons operation rest ih => exact ih (.perform operation h)

/-- A transaction over a recording store.  Two statements are flushed when batching is enabled once
more; another one and two writes wait in the coordinator that takes over. -/
def reenabled (store : Memory) :
    Chronicle (Watched Memory) × Transaction × Backing (Watched Memory) :=
  performAll
    [.enable {}, .run ⟨"x", []⟩, .run ⟨"y", []⟩, .enable { flushOnMixed := false },
      .run ⟨"x", []⟩, .save (Coordinator.insertion "a" 0), .save (Coordinator.insertion "b" 0)]
    ({}, .new (Coordinator.lettered []), ⟨⟨[], store⟩, {}, []⟩)

theorem life_reenabled (store : Memory) :
    Life (Coordinator.lettered []) (reenabled store).1 (reenabled store).2.1
      (reenabled store).2.2 :=
  Life.performAll _ (.new _ rfl)

/-- Over an unarmed store the commit executes what waits, and nothing was lost.  Over a store that
refuses the first of the writes a flush fails; the commit behind it succeeds without a call, and
something was lost. -/
theorem committed_iff_of_reenabled :
    (let now := reenabled {}
      let epochs := (now.2.1.record .commit now.2.2 now.1).epochs
      (perform .commit now.2.1 now.2.2).1 = .ok .done ∧
        epochs.map (fun epoch => (Coordinator.executed (Coordinator.lettered []).registry epoch).map
            (fun parcel => parcel.statement.text)) =
          [[], ["x", "y"], ["x", "insert into a () values ()", "insert into b () values ()"]] ∧
        ∀ epoch ∈ epochs, ∀ stage ∈ epoch, ¬stage.Loses (Coordinator.lettered [])) ∧
      let now := reenabled { failAt := some 4 }
      let failed := perform .flush now.2.1 now.2.2
      let epochs :=
        (failed.2.1.record .commit failed.2.2 (now.2.1.record .flush now.2.2 now.1)).epochs
      (∃ e, failed.1 = .error e) ∧ (perform .commit failed.2.1 failed.2.2).1 = .ok .done ∧
        (perform .commit failed.2.1 failed.2.2).2.2.store = failed.2.2.store ∧
        failed.2.2.store.behind.executed.map Executed.text = ["x", "y", "x"] ∧
        ¬∀ epoch ∈ epochs, ∀ stage ∈ epoch, ¬stage.Loses (Coordinator.lettered []) := by
  constructor
  · intro now epochs
    have hok : (perform .commit now.2.1 now.2.2).1 = .ok .done := rfl
    obtain ⟨-, -, hexecuted⟩ := (committed_iff (life_reenabled {})).1 hok
    refine ⟨hok, by decide +kernel, hexecuted.1 ?_⟩
    decide +kernel
  · intro now failed epochs
    obtain ⟨hfailed, hok, hstore⟩ :=
      (committed_iff (life_reenabled { failAt := some 4 })).2 .flush false _ _ _
        (List.mem_singleton_self _) rfl
    obtain ⟨-, -, hexecuted⟩ :=
      (committed_iff (.perform .flush (life_reenabled { failAt := some 4 }))).1 hok
    refine ⟨⟨_, hfailed⟩, hok, hstore, by decide +kernel, fun hkept => ?_⟩
    have hperm := hexecuted.2 hkept
    revert hperm
    decide +kernel

def oneWaiting (store : Memory) :
    Chronicle (Watched Memory) × Transaction × Backing (Watched Memory) :=
  performAll [.enable {}, .run ⟨"x", []⟩]
    ({}, .new ⟨.empty, "t", false⟩, ⟨⟨[], store⟩, {}, []⟩)

/-- The store refuses the one statement when it is flushed.  The commit succeeds all the same, and
the statement is lost. -/
theorem committed_after_failed_flush :
    (performAll [.flush, .commit] (oneWaiting { failAt := some 1 })).2.1.state = .committed ∧
      ¬∀ epoch ∈ (performAll [.flush, .commit] (oneWaiting { failAt := some 1 })).1.epochs,
        (Coordinator.acceptedParcels .empty epoch).Perm (Coordinator.executed .empty epoch) := by
  constructor
  · rfl
  · intro hperm
    have hlength := (hperm _ (List.mem_append_right _ (List.mem_singleton_self _))).length_eq
    have hnone : 1 = 0 := hlength
    cases hnone

end Transaction

end Cascade
