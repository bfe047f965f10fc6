import Cascade.Proofs.Errands

/-!
# The end of a transaction

A transaction that has been committed or rolled back is inert.  It has let go of
its coordinator, and whatever is asked of it afterwards reaches neither the
store nor the counters nor the journal.

An attempt to end it or to switch batching may fail.  Then the transaction is
active as before, under the same policy and at the same depth of the cascade.
-/

namespace Cascade.Transaction

variable {σ : Type} [Store σ] {ctx : Context} {t : Transaction}

/-! ## After the end -/

theorem Sound.inert
    (h : Sound ctx t) (hended : t.state ≠ .active) (operation : Operation) (b : Backing σ) :
    (perform operation t b).2.2 = b ∧ (perform operation t b).2.1.state = t.state := by
  rcases hguarded : operation.guarded
  · obtain ⟨answer, next, hperform, -, hstate, -⟩ :=
      perform_of_unguarded (h.ended hended) hguarded b
    rw [hperform]
    exact ⟨rfl, hstate⟩
  · rw [perform_of_ended hended hguarded]
    exact ⟨rfl, rfl⟩

theorem Sound.inert_enact
    (h : Sound ctx t) (hended : t.state ≠ .active) (operations : List Operation) (b : Backing σ) :
    (enact operations (t, b)).2 = b ∧ (enact operations (t, b)).1.state = t.state ∧
      Sound ctx (enact operations (t, b)).1 := by
  induction operations generalizing t with
  | nil => exact ⟨rfl, rfl, h⟩
  | cons operation rest ih =>
      obtain ⟨hbacking, hstate⟩ := h.inert hended operation b
      have hrest := ih (h.step operation b) (hstate.symm ▸ hended)
      have hsame : (perform operation t b).2 = ((perform operation t b).2.1, b) :=
        Prod.ext rfl hbacking
      have hstep : enact (operation :: rest) (t, b) =
          enact rest ((perform operation t b).2.1, b) := by
        change enact rest (perform operation t b).2 = _
        rw [hsame]
      rw [hstep]
      exact ⟨hrest.1, hrest.2.1.trans hstate, hrest.2.2⟩

/-! ## Before the end -/

/-- A rollback of an active transaction drops what waits and asks the store for nothing. -/
theorem perform_rollback (hactive : t.state = .active) (b : Backing σ) :
    (perform .rollback t b).1 = .ok .done ∧ (perform .rollback t b).2.1.state = .rolledBack ∧
      (perform .rollback t b).2.1.coordinator = none ∧
      (perform .rollback t b).2.2.store = b.store ∧
      (perform .rollback t b).2.2.metrics = b.metrics := by
  rw [perform, rollback, whileActive_of_active hactive]
  refine ⟨rfl, rfl, rfl, ?_⟩
  rcases t.coordinator with _ | c
  · exact ⟨rfl, rfl⟩
  · simp only [Coordinator.discard]
    constructor
    · split <;> rfl
    · split <;> rfl

/-- An attempt to let go of the coordinator that fails leaves the transaction active, under the
same policy and at the same depth. -/
theorem Sound.retires_in_vain
    (h : Sound ctx t) (hactive : t.state = .active) {operation : Operation}
    (hretires : operation.retires = true) {b : Backing σ} {e : WriteError}
    (hfail : (perform operation t b).1 = .error e) :
    (perform operation t b).2.1.state = .active ∧
      (perform operation t b).2.1.coordinator.map Coordinator.policy =
        t.coordinator.map Coordinator.policy ∧
      (perform operation t b).2.1.depth = t.depth := by
  have hleads := leads_perform h.ended operation b
  generalize perform operation t b = result at hleads hfail ⊢
  cases hleads with
  | refused hended => exact absurd hactive hended
  | rejected => exact ⟨hactive, rfl, rfl⟩
  | executed request _ _ hrequest =>
      cases operation with
      | enable | disable | commit => cases hrequest
      | save | run | runNow | flush | coordinate | push | pop | takeKeys | rollback =>
          cases hretires
  | idle | done => cases hfail
  | @failed c d errand e after _ hc herrand hperform =>
      obtain ⟨rfl, -⟩ := perform_of_retired hactive hretires herrand b
      have hpolicy : d.policy = c.policy := by
        have hflushed : c.flushWith t.context false b = (.error e, d, after) :=
          eq_error_of_andThen hperform
        have hsame := Coordinator.policy_flushWith t.context false c b
        rw [hflushed] at hsame
        exact hsame
      exact ⟨hactive, by simp [hc, hpolicy], rfl⟩

/-- A transaction that has ended has no coordinator.  Whatever operations follow, they leave the
store, the counters, the journal and the state as they are, and every operation but those that touch
only the depth or the keys is refused as discarded.

An active transaction is rolled back without a call to the store, whatever waits.  A commit, an
enabling or a disabling that fails leaves it active under the same policy and at the same depth, and
an enabling with an invalid policy leaves everything as it is. -/
theorem ended_is_inert
    {ctx : Context} {t : Transaction} (ht : Reachable ctx t) :
    (t.state ≠ .active → t.coordinator = none ∧
      ∀ {σ : Type} [Store σ] (operations : List Operation) (b : Backing σ),
        (enact operations (t, b)).2 = b ∧ (enact operations (t, b)).1.state = t.state ∧
          (enact operations (t, b)).1.coordinator = none ∧
          ∀ operation, operation.guarded = true →
            perform operation (enact operations (t, b)).1 (enact operations (t, b)).2 =
              (.error .discarded, enact operations (t, b))) ∧
    (t.state = .active → ∀ {σ : Type} [Store σ] (b : Backing σ),
      ((perform .rollback t b).1 = .ok .done ∧ (perform .rollback t b).2.1.state = .rolledBack ∧
        (perform .rollback t b).2.1.coordinator = none ∧
        (perform .rollback t b).2.2.store = b.store ∧
        (perform .rollback t b).2.2.metrics = b.metrics) ∧
      (∀ operation e, operation.retires = true → (perform operation t b).1 = .error e →
        (perform operation t b).2.1.state = .active ∧
          (perform operation t b).2.1.coordinator.map Coordinator.policy =
            t.coordinator.map Coordinator.policy ∧
          (perform operation t b).2.1.depth = t.depth) ∧
      ∀ policy cause, policy.check = .error cause →
        perform (.enable policy) t b = (.error (.policy cause), t, b)) := by
  have hsound := ht.sound
  constructor
  · intro hended
    refine ⟨hsound.ended hended, ?_⟩
    intro σ _ operations b
    obtain ⟨hbacking, hstate, hlast⟩ := hsound.inert_enact hended operations b
    have hstays : (enact operations (t, b)).1.state ≠ .active := hstate.symm ▸ hended
    exact ⟨hbacking, hstate, hlast.ended hstays,
      fun operation hguarded => perform_of_ended hstays hguarded _⟩
  · intro hactive σ _ b
    refine ⟨perform_rollback hactive b,
      fun operation e hretires hfail => hsound.retires_in_vain hactive hretires hfail, ?_⟩
    intro policy cause hpolicy
    exact perform_of_rejected hactive hpolicy b

def waiting : Transaction :=
  (enact [.enable {}, .run ⟨"x", []⟩]
    (.new ⟨.empty, "t", false⟩, (⟨{}, {}, []⟩ : Backing Memory))).1

theorem reachable_waiting : Reachable ⟨.empty, "t", false⟩ waiting :=
  Reachable.enact .new _ _

/-- A commit over a store that refuses the statement leaves the transaction active; after a rollback
it is inert. -/
theorem ended_is_inert_of_waiting :
    Reachable ⟨.empty, "t", false⟩ waiting ∧ waiting.state = .active ∧
      (perform .commit waiting (⟨{ failAt := some 1 }, {}, []⟩ : Backing Memory)).1 =
        .error (.execution "x" 0 (Memory.refusal 1)) ∧
      (perform .commit waiting (⟨{ failAt := some 1 }, {}, []⟩ : Backing Memory)).2.1.state =
        .active ∧
      (perform .rollback waiting (⟨{}, {}, []⟩ : Backing Memory)).2.1.state ≠ .active ∧
      (enact [.flush, .push, .commit]
        ((perform .rollback waiting (⟨{}, {}, []⟩ : Backing Memory)).2.1,
          (⟨{}, {}, []⟩ : Backing Memory))).2 = ⟨{}, {}, []⟩ := by
  have hfail : (perform .commit waiting (⟨{ failAt := some 1 }, {}, []⟩ : Backing Memory)).1 =
      .error (.execution "x" 0 (Memory.refusal 1)) :=
    rfl
  have hactive := (ended_is_inert reachable_waiting).2 rfl
    (⟨{ failAt := some 1 }, {}, []⟩ : Backing Memory)
  have hrolled : Reachable ⟨.empty, "t", false⟩
      (perform .rollback waiting (⟨{}, {}, []⟩ : Backing Memory)).2.1 :=
    .step .rollback _ reachable_waiting
  have hended : (perform .rollback waiting (⟨{}, {}, []⟩ : Backing Memory)).2.1.state ≠ .active :=
    nofun
  exact ⟨reachable_waiting, rfl, hfail, (hactive.2.1 .commit _ rfl hfail).1, hended,
    (((ended_is_inert hrolled).1 hended).2 [.flush, .push, .commit] _).1⟩

end Cascade.Transaction
