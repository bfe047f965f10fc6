import Cascade.Proofs.Conservation
import Cascade.Proofs.Operations

/-!
# Chronicles of transactions

A transaction owns one coordinator after the other.  Its chronicle holds the
stages of each of them, and what is known of a coordinator at the end of a run
is known of every epoch of the chronicle.
-/

namespace Cascade

namespace Coordinator

variable {σ : Type}

/-- A history after which nothing waits: what was accepted was sent or dropped. -/
structure Closed [Store σ] (ctx : Context) (history : List (Stage σ)) : Prop where
  numbered : ((accepted history).map Prod.fst).Nodup
  known : ∀ entry ∈ accepted history, ∃ parcel,
    entry.2.parcel? ctx.registry entry.1 = some parcel
  balanced : (acceptedParcels ctx.registry history).Perm
    ((sent ctx.registry history).flatten ++ dropped ctx.registry history)
  ready : ∀ stage ∈ history, stage.Ready ctx.registry

theorem Closed.nil [Store σ] (ctx : Context) : Closed ctx ([] : List (Stage σ)) where
  numbered := List.Pairwise.nil
  known := by
    intro entry hmem
    cases hmem
  balanced := List.Perm.refl []
  ready := by
    intro stage hmem
    cases hmem

theorem Tally.closed [Store σ]
    {ctx : Context} {earlier : List Seen} {history : List (Stage (Watched σ))} {given : Bool}
    {c : Coordinator} {b : Backing (Watched σ)} (h : Tally ctx earlier history ⟨given, c, b⟩)
    (hnone : c.parcels ctx.registry = []) : Closed ctx history where
  numbered := by
    obtain ⟨n, -, harrived⟩ := h.numbered
    exact harrived.nodup
  known := h.known
  balanced := by
    have hbalanced := h.balanced
    simp only [hnone, List.nil_append] at hbalanced
    exact hbalanced
  ready := h.ready

end Coordinator

namespace Transaction

open Coordinator (Stage Tally Closed)

variable {σ : Type}

/-! ## Chronicles -/

/-- The stages of the coordinators that a transaction has had, and of the last one. -/
structure Chronicle (σ : Type) where
  past : List (List (Stage σ)) := []
  present : List (Stage σ) := []

namespace Chronicle

def epochs (k : Chronicle σ) : List (List (Stage σ)) :=
  k.past ++ [k.present]

def extend (stages : List (Stage σ)) (k : Chronicle σ) : Chronicle σ :=
  { k with present := k.present ++ stages }

@[simp] theorem extend_nil (k : Chronicle σ) : k.extend [] = k := by
  simp [extend]

def renew (k : Chronicle σ) : Chronicle σ :=
  ⟨k.epochs, []⟩

end Chronicle

def record [Store σ] (operation : Operation) (t : Transaction) (b : Backing σ)
    (k : Chronicle σ) : Chronicle σ :=
  match operation, (perform operation t b).1 with
  | .enable _, .ok _ => (k.extend (t.stages operation b)).renew
  | _, _ => k.extend (t.stages operation b)

/-- A run of operations from a new transaction, with its chronicle. -/
inductive Life [Store σ] (ctx : Context) :
    Chronicle (Watched σ) → Transaction → Backing (Watched σ) → Prop
  | new (b : Backing (Watched σ)) : b.store.seen = [] → Life ctx {} (.new ctx) b
  | perform {k : Chronicle (Watched σ)} {t : Transaction} {b : Backing (Watched σ)}
      (operation : Operation) : Life ctx k t b →
        Life ctx (t.record operation b k) (perform operation t b).2.1 (perform operation t b).2.2
  | change {k : Chronicle (Watched σ)} {t : Transaction} {b : Backing (Watched σ)}
      (other : Backing (Watched σ)) : Life ctx k t b → other.store.seen = b.store.seen →
        Life ctx k t other

def calls [Store σ] (registry : Registry) (epochs : List (List (Stage σ))) : List Seen :=
  epochs.flatMap (fun epoch => epoch.flatMap (Stage.calls registry))

section Steps

variable [Store σ] {ctx : Context} {k : Chronicle (Watched σ)} {t next : Transaction}
  {b after : Backing (Watched σ)}

theorem calls_eq (registry : Registry) (epochs : List (List (Stage σ))) :
    calls registry epochs = epochs.flatten.flatMap (Stage.calls registry) := by
  induction epochs with
  | nil => rfl
  | cons epoch rest ih =>
      rw [calls, List.flatMap_cons, List.flatten_cons, List.flatMap_append, ← ih]
      rfl

theorem calls_epochs (registry : Registry) (k : Chronicle σ) :
    calls registry k.epochs =
      calls registry k.past ++ k.present.flatMap (Stage.calls registry) := by
  simp [Chronicle.epochs, calls]

theorem record_eq
    {operation : Operation} (h : ∀ policy, operation ≠ .enable policy) (t : Transaction)
    (b : Backing σ) (k : Chronicle σ) :
    t.record operation b k = k.extend (t.stages operation b) := by
  cases operation with
  | enable policy => exact absurd rfl (h policy)
  | _ => rfl

theorem record_of_error
    {operation : Operation} {t : Transaction} {b : Backing σ} {e : WriteError}
    (hfail : (perform operation t b).1 = .error e) (k : Chronicle σ) :
    t.record operation b k = k.extend (t.stages operation b) := by
  unfold record
  rw [hfail]
  cases operation <;> rfl

theorem record_of_enabled
    {policy : Policy} {t : Transaction} {b : Backing σ} {reply : Coordinator.Reply}
    (hok : (perform (.enable policy) t b).1 = .ok reply) (k : Chronicle σ) :
    t.record (.enable policy) b k = (k.extend (t.stages (.enable policy) b)).renew := by
  unfold record
  rw [hok]

/-- The invariant while the transaction has a coordinator. -/
structure Owned (ctx : Context) (k : Chronicle (Watched σ)) (t : Transaction) (c : Coordinator)
    (b : Backing (Watched σ)) : Prop where
  context : t.context = ctx
  coordinator : t.coordinator = some c
  active : t.state = .active
  past : ∀ epoch ∈ k.past, Closed ctx epoch
  present : ∃ given, Tally ctx (calls ctx.registry k.past) k.present ⟨given, c, b⟩

/-- The invariant while the transaction has no coordinator. -/
structure Bare (ctx : Context) (k : Chronicle (Watched σ)) (t : Transaction)
    (b : Backing (Watched σ)) : Prop where
  context : t.context = ctx
  coordinator : t.coordinator = none
  closed : ∀ epoch ∈ k.epochs, Closed ctx epoch
  called : batches b.store.seen = calls ctx.registry k.epochs

/-- The invariant of transactions. -/
def Kept (ctx : Context) (k : Chronicle (Watched σ)) (t : Transaction)
    (b : Backing (Watched σ)) : Prop :=
  Bare ctx k t b ∨ ∃ c, Owned ctx k t c b

namespace Owned

variable {c : Coordinator}

theorem advance
    (h : Owned ctx k t c b) (errand : Coordinator.Operation) (hcontext : next.context = ctx)
    (hactive : next.state = .active)
    (hcoordinator : next.coordinator = some (Coordinator.perform ctx errand c b).2.1)
    (hseen : after.store.seen = (Coordinator.perform ctx errand c b).2.2.store.seen) :
    Owned ctx (k.extend (Coordinator.stages ctx errand c b)) next
      (Coordinator.perform ctx errand c b).2.1 after where
  context := hcontext
  coordinator := hcoordinator
  active := hactive
  past := h.past
  present := by
    obtain ⟨given, htally⟩ := h.present
    obtain ⟨last, hlast⟩ := htally.perform errand
    exact ⟨last, hlast.change hseen⟩

theorem release
    (h : Owned ctx k t c b) (errand : Coordinator.Operation) (hcontext : next.context = ctx)
    (hcoordinator : next.coordinator = none)
    (hnone : (Coordinator.perform ctx errand c b).2.1.parcels ctx.registry = [])
    (hseen : after.store.seen = (Coordinator.perform ctx errand c b).2.2.store.seen) :
    Bare ctx (k.extend (Coordinator.stages ctx errand c b)) next after where
  context := hcontext
  coordinator := hcoordinator
  closed := by
    obtain ⟨given, htally⟩ := h.present
    obtain ⟨last, hlast⟩ := htally.perform errand
    intro epoch hmem
    rcases List.mem_append.1 hmem with hmem | hmem
    · exact h.past epoch hmem
    · rw [List.mem_singleton.1 hmem]
      exact hlast.closed hnone
  called := by
    obtain ⟨given, htally⟩ := h.present
    obtain ⟨last, hlast⟩ := htally.perform errand
    rw [hseen, calls_epochs]
    exact hlast.called

end Owned

theorem Bare.hire
    (h : Bare ctx k t b) (policy : Policy) (hcontext : next.context = ctx)
    (hactive : next.state = .active) (hcoordinator : next.coordinator = some (.new policy))
    (hseen : batches after.store.seen = batches b.store.seen) :
    Owned ctx k.renew next (.new policy) after where
  context := hcontext
  coordinator := hcoordinator
  active := hactive
  past := h.closed
  present := by
    have htally : Tally ctx (batches after.store.seen) [] ⟨false, .new policy, after⟩ :=
      .new policy after
    rw [hseen, h.called] at htally
    exact ⟨false, htally⟩

theorem Owned.stages_of_errand
    {c : Coordinator} (h : Owned ctx k t c b) {operation : Operation}
    {errand : Coordinator.Operation} (herrand : t.errand? operation = some errand) :
    t.stages operation b = Coordinator.stages ctx errand c b := by
  rw [Transaction.stages_of_errand h.coordinator herrand, h.context]

theorem Owned.congr
    {c : Coordinator} (h : Owned ctx k t c b) (hcontext : next.context = t.context)
    (hactive : next.state = t.state) (hcoordinator : next.coordinator = t.coordinator) :
    Owned ctx k next c b :=
  ⟨hcontext.trans h.context, hcoordinator.trans h.coordinator, hactive.trans h.active, h.past,
    h.present⟩

theorem Bare.congr
    (h : Bare ctx k t b) (hcontext : next.context = t.context)
    (hcoordinator : next.coordinator = none)
    (hseen : batches after.store.seen = batches b.store.seen) : Bare ctx k next after :=
  ⟨hcontext.trans h.context, hcoordinator, h.closed, hseen.trans h.called⟩

theorem Owned.retired {c : Coordinator} (h : Owned ctx k t c b) :
    (∃ e, (t.retire b).1 = .error e ∧
        Owned ctx (k.extend (Coordinator.stages ctx (.flush false) c b)) (t.retire b).2.1
          (Coordinator.perform ctx (.flush false) c b).2.1 (t.retire b).2.2) ∨
      (t.retire b).1 = .ok () ∧ (t.retire b).2.1.state = .active ∧
        Bare ctx (k.extend (Coordinator.stages ctx (.flush false) c b)) (t.retire b).2.1
          (t.retire b).2.2 := by
  have hflush : (Coordinator.perform ctx (.flush false) c b).2 = (c.flushWith ctx false b).2 :=
    andThen_pure_snd _ _
  have hcontext := h.context
  rcases hresult : (c.flushWith ctx false b).1 with e | totals
  · left
    have hretire : t.retire b = (.error e,
        { t with coordinator := some (c.flushWith t.context false b).2.1 },
        (c.flushWith t.context false b).2.2) :=
      retire_of_failed_flush h.coordinator (hcontext.symm ▸ hresult)
    rw [hretire]
    refine ⟨e, rfl, h.advance (.flush false) hcontext h.active ?_ ?_⟩
    · rw [hflush, hcontext]
    · rw [hflush, hcontext]
  · right
    obtain ⟨hok, ⟨keys, hnext⟩, hstore⟩ :=
      retire_of_flush h.coordinator (b := b) (hcontext.symm ▸ hresult)
    rw [hcontext] at hstore
    refine ⟨hok, ?_, h.release (.flush false) ?_ ?_ ?_ ?_⟩
    · rw [hnext]
      exact h.active
    · rw [hnext]
      exact hcontext
    · rw [hnext]
    · rw [hflush]
      exact Coordinator.parcels_flushWith ctx.registry ctx false c b
    · rw [hflush, hstore]

theorem Owned.carry
    {c : Coordinator} (h : Owned ctx k t c b) {operation : Operation}
    {errand : Coordinator.Operation} (hlends : operation.lends = true)
    (herrand : t.errand? operation = some errand) :
    Kept ctx (t.record operation b k) (perform operation t b).2.1 (perform operation t b).2.2 := by
  have hnot : ∀ policy, operation ≠ .enable policy := by
    rintro policy rfl
    cases hlends
  rw [record_eq hnot, h.stages_of_errand herrand,
    carried_of_lent h.active h.coordinator hlends herrand]
  right
  refine ⟨_, h.advance errand h.context h.active ?_ ?_⟩
  · simp [carried, h.context]
  · simp [carried, h.context]

/-- An operation that lets go of the coordinator closes its epoch, or it keeps the coordinator as
the flush has left it. -/
theorem Owned.relinquish
    {c : Coordinator} (h : Owned ctx k t c b) {operation : Operation}
    {errand : Coordinator.Operation} (hretires : operation.retires = true)
    (herrand : t.errand? operation = some errand) :
    Kept ctx (t.record operation b k) (perform operation t b).2.1 (perform operation t b).2.2 := by
  have hstages := h.stages_of_errand herrand
  have hrecord : (∀ policy, operation ≠ .enable policy) →
      t.record operation b k = k.extend (t.stages operation b) :=
    fun hnot => record_eq hnot t b k
  obtain ⟨rfl, hperform⟩ := perform_of_retired h.active hretires herrand b
  rcases hretire : t.retire b with ⟨e | _, next, after⟩
  · rw [hretire] at hperform
    rcases h.retired with ⟨e', -, howned⟩ | ⟨hok, -, -⟩
    · rw [hretire] at howned
      rw [record_of_error (congrArg Prod.fst hperform), hstages, hperform]
      exact Or.inr ⟨_, howned⟩
    · rw [hretire] at hok
      cases hok
  · rw [hretire] at hperform
    rcases h.retired with ⟨e', hfail, -⟩ | ⟨-, hactive, hbare⟩
    · rw [hretire] at hfail
      cases hfail
    · rw [hretire] at hactive hbare
      cases operation with
      | enable policy =>
          rw [record_of_enabled (congrArg Prod.fst hperform), hstages, hperform]
          exact Or.inr ⟨_, hbare.hire policy hbare.context hactive rfl rfl⟩
      | disable | commit =>
          rw [hrecord nofun, hstages, hperform]
          exact Or.inl (hbare.congr rfl hbare.coordinator rfl)
      | save | run | runNow | flush | coordinate | push | pop | takeKeys | rollback =>
          cases hretires

theorem Owned.kept {c : Coordinator} (h : Owned ctx k t c b) (operation : Operation) :
    Kept ctx (t.record operation b k) (perform operation t b).2.1
      (perform operation t b).2.2 := by
  have hrecord : (∀ policy, operation ≠ .enable policy) →
      t.record operation b k = k.extend (t.stages operation b) :=
    fun hnot => record_eq hnot t b k
  cases operation with
  | save | run | runNow | flush | coordinate => exact h.carry rfl rfl
  | disable | commit => exact h.relinquish rfl rfl
  | enable policy =>
      rcases hpolicy : policy.check with cause | checked
      · have hperform := perform_of_rejected h.active hpolicy b
        rw [record_of_error (congrArg Prod.fst hperform),
          stages_of_no_errand (errand?_of_rejected hpolicy t), hperform, Chronicle.extend_nil]
        exact Or.inr ⟨c, h⟩
      · exact h.relinquish rfl (errand?_of_check hpolicy t)
  | push | pop =>
      rw [hrecord (by simp), stages_of_no_errand rfl, Chronicle.extend_nil]
      exact Or.inr ⟨c, h.congr rfl rfl rfl⟩
  | takeKeys =>
      have hperform : (perform .takeKeys t b).2 =
          ({ t with keys := ∅, coordinator := some c.takeKeys.2 }, b) := by
        simp [perform, takeKeys, h.coordinator]
      rw [hrecord (by simp), h.stages_of_errand rfl, hperform]
      exact Or.inr ⟨_, h.advance .takeKeys h.context h.active rfl rfl⟩
  | rollback =>
      rw [hrecord (by simp), h.stages_of_errand rfl, perform, andThen_pure_snd, rollback,
        whileActive_of_active h.active]
      simp only [h.coordinator]
      refine Or.inl (h.release .clear h.context rfl ?_ ?_)
      · exact Coordinator.parcels_eq_nil ctx.registry rfl (by intro group hmem; cases hmem)
      · unfold Coordinator.discard
        split <;> rfl

/-- Without a coordinator no operation but an enabling does more than to execute a request at
once. -/
theorem perform_of_none
    (h : t.coordinator = none) {operation : Operation} (hnot : ∀ policy, operation ≠ .enable policy)
    (b : Backing (Watched σ)) :
    (perform operation t b).2.1.context = t.context ∧
      (perform operation t b).2.1.coordinator = none ∧
      batches (perform operation t b).2.2.store.seen = batches b.store.seen := by
  have hexecute : ∀ request, batches (t.executeNow request b).2.2.store.seen =
      batches b.store.seen :=
    fun request => Coordinator.batches_executeNow t.context.registry true request b
  rcases hguarded : operation.guarded
  · obtain ⟨answer, next, hperform, hcontext, -, hnext⟩ := perform_of_unguarded h hguarded b
    rw [hperform]
    exact ⟨hcontext, hnext, rfl⟩
  by_cases hactive : t.state = .active
  · cases operation with
    | enable policy => exact absurd rfl (hnot policy)
    | save record =>
        rw [perform, andThen_pure_snd, save, whileActive_of_active hactive]
        simp only [h]
        exact ⟨rfl, h, hexecute _⟩
    | run statement =>
        rw [perform, andThen_pure_snd, run, whileActive_of_active hactive]
        simp only [h]
        exact ⟨rfl, h, hexecute _⟩
    | runNow statement =>
        rw [perform, andThen_pure_snd, runNow, whileActive_of_active hactive]
        simp only [h]
        exact ⟨rfl, h, hexecute _⟩
    | flush =>
        rw [perform, andThen_pure_snd, flush, whileActive_of_active hactive]
        simp [h]
    | disable =>
        rw [perform, andThen_pure_snd, disableBatching, whileActive_of_active hactive,
          retire_of_none h]
        exact ⟨rfl, h, rfl⟩
    | commit =>
        rw [perform, andThen_pure_snd, commit, whileActive_of_active hactive, retire_of_none h]
        exact ⟨rfl, h, rfl⟩
    | rollback =>
        rw [perform, andThen_pure_snd, rollback, whileActive_of_active hactive]
        simp [h, Backing.note]
    | coordinate | push | pop | takeKeys => cases hguarded
  · rw [perform_of_ended hactive hguarded]
    exact ⟨rfl, h, rfl⟩

theorem Bare.kept (h : Bare ctx k t b) (operation : Operation) :
    Kept ctx (t.record operation b k) (perform operation t b).2.1
      (perform operation t b).2.2 := by
  have hstages := stages_of_none h.coordinator operation b
  by_cases henable : ∃ policy, operation = .enable policy
  · obtain ⟨policy, rfl⟩ := henable
    rcases enable_of_none h.coordinator policy b with ⟨e, hperform⟩ | ⟨hactive, hperform⟩
    · rw [record_of_error (congrArg Prod.fst hperform), hstages, hperform, Chronicle.extend_nil]
      exact Or.inl h
    · rw [record_of_enabled (congrArg Prod.fst hperform), hstages, hperform,
        Chronicle.extend_nil]
      exact Or.inr ⟨_, h.hire policy h.context hactive rfl rfl⟩
  · have hnot : ∀ policy, operation ≠ .enable policy :=
      fun policy heq => henable ⟨policy, heq⟩
    obtain ⟨hcontext, hcoordinator, hseen⟩ := perform_of_none h.coordinator hnot b
    rw [record_eq hnot, hstages, Chronicle.extend_nil]
    exact Or.inl (h.congr hcontext hcoordinator hseen)

theorem Life.kept (h : Life ctx k t b) : Kept ctx k t b := by
  induction h with
  | new b hseen =>
      left
      refine ⟨rfl, rfl, ?_, ?_⟩
      · intro epoch hmem
        rw [List.mem_singleton.1 hmem]
        exact .nil ctx
      · rw [hseen]
        rfl
  | perform operation _ ih =>
      rcases ih with hbare | ⟨c, howned⟩
      · exact hbare.kept operation
      · exact howned.kept operation
  | change other _ hseen ih =>
      rcases ih with hbare | ⟨c, howned⟩
      · exact Or.inl (hbare.congr rfl hbare.coordinator (by rw [hseen]))
      · obtain ⟨given, htally⟩ := howned.present
        exact Or.inr ⟨c, howned.context, howned.coordinator, howned.active, howned.past, given,
          htally.change hseen⟩

end Steps

end Transaction

end Cascade
