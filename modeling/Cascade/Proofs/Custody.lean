import Cascade.Proofs.Commit
import Cascade.Proofs.Keys
import Cascade.Proofs.Precedence

/-!
# Generated keys of a transaction

A transaction keeps the keys of the coordinators that it has let go beside
those of the present one, all under the numbers of the requests.  Each
coordinator counts its requests from one.  So the numbers of two coordinators
that have accepted something meet, and where they do one key takes the place of
another.  With one such coordinator no number is given twice, and every key is
held until it is handed over.
-/

namespace Cascade

open Json

namespace Coordinator

variable {σ α β : Type}

/-! ## The first number -/

/-- No request has been numbered and no group has been opened. -/
structure Unused (c : Coordinator) : Prop where
  window : c.window.isEmpty = true
  requests : c.requests = 0

/-- A history that accepts requests accepts one under the first number. -/
def Opens (history : List (Stage σ)) : Prop :=
  accepted history = [] ∨ ⟨1⟩ ∈ (accepted history).map Prod.fst

/-- A step accepts nothing and leaves the coordinator unused, or it accepts a request under the
first number. -/
def Traced.Begins (t : Traced σ α) : Prop :=
  (accepted t.1 = [] ∧ t.2.2.1.Unused) ∨ ⟨1⟩ ∈ (accepted t.1).map Prod.fst

theorem Traced.Begins.of_unused
    {t : Traced σ α} {next : α → Coordinator → Backing σ → Traced σ β}
    (hnone : accepted t.1 = []) (hunused : t.2.2.1.Unused)
    (hnext : ∀ a c b, c.Unused → (next a c b).Begins) : (t.andThen next).Begins := by
  obtain ⟨stages, e | a, c, b⟩ := t
  · exact Or.inl ⟨hnone, hunused⟩
  · simp only at hnone
    simpa [Traced.Begins, Traced.andThen, hnone] using hnext a c b hunused

theorem Traced.Begins.andThen_done
    {t : Traced σ α} (h : t.Begins) (answer : α → β) :
    (t.andThen (fun a c b => .done (answer a) c b)).Begins := by
  obtain ⟨stages, e | a, c, b⟩ := t
  · exact h
  · simpa [Traced.Begins, Traced.andThen, Traced.done] using h

section Beginning

variable [Store σ] {ctx : Context} {c : Coordinator}

theorem Unused.flushWith (h : c.Unused) (reset : Bool) (b : Backing σ) :
    (c.flushWith ctx reset b).2.1.Unused where
  window := by
    rw [window_flushWith]
    split
    · rfl
    · exact (Window.isEmpty_drained c.window).trans h.window
  requests := (congrArg RequestId.number (latest_flushWith ctx reset c b)).trans h.requests

theorem Unused.traceFlushIf (h : c.Unused) (condition : Bool) (b : Backing σ) :
    (traceFlushIf ctx condition c b).2.2.1.Unused := by
  rw [traceFlushIf_snd]
  cases condition
  · exact h
  · have hflush : (c.flushWith ctx false b).2.1.Unused := h.flushWith false b
    simp only [flushIf, flush, if_true]
    rcases hstep : c.flushWith ctx false b with ⟨e | totals, settled, after⟩
    all_goals
      rw [hstep] at hflush
      exact hflush

theorem Unused.begins_traceExecute (h : c.Unused) (request : Request) (b : Backing σ) :
    (traceExecute ctx request c b).Begins :=
  Or.inl ⟨rfl, h⟩

theorem Unused.begins_traceQueueStatement (h : c.Unused) (statement : Statement) (b : Backing σ) :
    (traceQueueStatement ctx statement c b).Begins := by
  right
  simp [traceQueueStatement, Traced.andThen, Traced.stage, accepted, Stage.accepted, latest,
    numbered, h.requests]

/-- In an empty window every group has its place, so a write is buffered under the number that it
was given. -/
theorem Unused.begins_traceQueueRecord (h : c.Unused) (record : Record) (b : Backing σ) :
    (traceQueueRecord ctx record c b).Begins := by
  right
  have hnone : c.window.get? record.root = none := by
    rcases hget : c.window.get? record.root with _ | group
    · rfl
    · have hnot := Window.isEmpty_of_get?_eq_some hget
      rw [h.window] at hnot
      cases hnot
  have hplace : placement record.depth (ctx.registry.imported record.root) c.window c.maxDepth =
      .depth (baseDepth + record.depth) :=
    if_pos (Or.inr h.window)
  obtain ⟨tail, hstages, -⟩ := stages_traceQueueRecord_entrant hnone hplace b
  rw [hstages]
  simp [accepted, Stage.accepted, latest, numbered, h.requests]

theorem Unused.begins_traceSubmit
    (h : c.Unused) (request : Request) (batch : Bool) (b : Backing σ) :
    (traceSubmit ctx request batch c b).Begins := by
  cases request with
  | record record =>
      rw [traceSubmit, traceSubmitRecord]
      split
      · refine .of_unused (accepted_traceFlushIf ctx _ c b) (h.traceFlushIf _ b) ?_
        intro _ c b hunused
        cases batch
        · exact hunused.begins_traceExecute _ b
        · exact hunused.begins_traceQueueRecord record b
      · exact Or.inl ⟨rfl, h⟩
  | statement statement =>
      refine .of_unused (accepted_traceFlushIf ctx _ c b) (h.traceFlushIf _ b) ?_
      intro _ c b hunused
      cases batch
      · exact hunused.begins_traceExecute _ b
      · exact hunused.begins_traceQueueStatement statement b

/-- The first request that an unused coordinator accepts has the first number. -/
theorem Unused.perform
    (h : c.Unused) (ctx : Context) (operation : Operation) (b : Backing σ) :
    (accepted (stages ctx operation c b) = [] ∧ (perform ctx operation c b).2.1.Unused) ∨
      ⟨1⟩ ∈ (accepted (stages ctx operation c b)).map Prod.fst := by
  rw [← trace_snd]
  change (trace ctx operation c b).Begins
  cases operation with
  | submit request batch => exact (h.begins_traceSubmit request batch b).andThen_done _
  | flush reset =>
      have hflush : (traceFlush ctx reset c b).Begins := Or.inl ⟨rfl, h.flushWith reset b⟩
      exact hflush.andThen_done _
  | clear => exact Or.inl ⟨rfl, rfl, h.requests⟩
  | setBatchSize size =>
      refine Or.inl ⟨rfl, ?_⟩
      simp only [trace, Coordinator.perform, setBatchSize]
      split
      · exact ⟨h.window, h.requests⟩
      · exact h
  | setFetchKeys choice => cases choice <;> exact Or.inl ⟨rfl, h.window, h.requests⟩
  | setFlushOnMixed | takeKeys => exact Or.inl ⟨rfl, h.window, h.requests⟩

end Beginning

end Coordinator

namespace Transaction

open Coordinator (Stage Tally accepted issued handed Opens)

variable {σ : Type}

/-! ## What an operation does -/

/-- What an operation does to a transaction that has the coordinator `c`: the stages, the chronicle
and the transaction afterwards, and the keys that are handed over. -/
inductive Turn [Store σ] (ctx : Context) (k : Chronicle σ) (t : Transaction) (c : Coordinator)
    (b : Backing σ) :
    List (Stage σ) → Chronicle σ → Transaction → List (RequestId × Datum) → Prop
  /-- The coordinator is asked for nothing. -/
  | idle {next : Transaction} : next.keys = t.keys → next.coordinator = some c →
      Turn ctx k t c b [] k next []
  /-- The coordinator performs an operation and stays. -/
  | errand (errand : Coordinator.Operation) {next : Transaction} : next.keys = t.keys →
      next.coordinator = some (Coordinator.perform ctx errand c b).2.1 →
      Turn ctx k t c b (Coordinator.stages ctx errand c b)
        (k.extend (Coordinator.stages ctx errand c b)) next
        (handed (Coordinator.perform ctx errand c b).1)
  | take {next : Transaction} : next.keys = ∅ → next.coordinator = some c.takeKeys.2 →
      Turn ctx k t c b (Coordinator.stages ctx .takeKeys c b)
        (k.extend (Coordinator.stages ctx .takeKeys c b)) next
        (t.keys.insertAll c.keys.entries).entries
  /-- The coordinator is flushed and let go. -/
  | release {next : Transaction} :
      next.keys = t.keys.insertAll
        (Coordinator.perform ctx (.flush false) c b).2.1.keys.entries →
      next.coordinator = none →
      Turn ctx k t c b (Coordinator.stages ctx (.flush false) c b)
        (k.extend (Coordinator.stages ctx (.flush false) c b)) next []
  /-- The coordinator is flushed and replaced. -/
  | replace (policy : Policy) {next : Transaction} :
      next.keys = t.keys.insertAll
        (Coordinator.perform ctx (.flush false) c b).2.1.keys.entries →
      next.coordinator = some (.new policy) →
      Turn ctx k t c b (Coordinator.stages ctx (.flush false) c b)
        (k.extend (Coordinator.stages ctx (.flush false) c b)).renew next []
  /-- The transaction is rolled back. -/
  | abandon {next : Transaction} : next.keys = t.keys → next.coordinator = none →
      next.state = .rolledBack →
      Turn ctx k t c b (Coordinator.stages ctx .clear c b)
        (k.extend (Coordinator.stages ctx .clear c b)) next []

/-- What an operation does to a transaction without a coordinator. -/
inductive Lull (k : Chronicle σ) (t : Transaction) :
    Chronicle σ → Transaction → List (RequestId × Datum) → Prop
  | idle {next : Transaction} : next.keys = t.keys → next.coordinator = none →
      (t.state = .rolledBack → next.state = .rolledBack) → Lull k t k next []
  | take {next : Transaction} : next.keys = ∅ → next.coordinator = none → next.state = t.state →
      Lull k t k next t.keys.entries
  /-- A coordinator is taken on. -/
  | hire (policy : Policy) {next : Transaction} : t.state = .active → next.keys = t.keys →
      next.coordinator = some (.new policy) → Lull k t k.renew next []

section Steps

variable [Store σ] {ctx : Context} {k : Chronicle (Watched σ)} {t : Transaction} {c : Coordinator}
  {b : Backing (Watched σ)}

theorem retire_of_flush_ok
    {totals : Totals} (h : t.coordinator = some c)
    (hok : (c.flushWith t.context false b).1 = .ok totals) :
    ∃ after, t.retire b = (.ok (), { t with
      coordinator := none
      keys := t.keys.insertAll (c.flushWith t.context false b).2.1.keys.entries }, after) := by
  unfold retire
  rw [h]
  simp only [Coordinator.flush]
  rcases hflush : c.flushWith t.context false b with ⟨e | totals, settled, last⟩
  all_goals
    rw [hflush] at hok
    cases hok
  exact ⟨_, rfl⟩

theorem Owned.retire_cases (h : Owned ctx k t c b) :
    (∃ e after, t.retire b = (.error e,
        { t with coordinator := some (Coordinator.perform ctx (.flush false) c b).2.1 }, after)) ∨
      ∃ after, t.retire b = (.ok (), { t with
        coordinator := none
        keys := t.keys.insertAll
          (Coordinator.perform ctx (.flush false) c b).2.1.keys.entries }, after) := by
  have hflush : (Coordinator.perform ctx (.flush false) c b).2 = (c.flushWith ctx false b).2 :=
    andThen_pure_snd _ _
  rw [hflush, ← h.context]
  rcases hresult : (c.flushWith t.context false b).1 with e | totals
  · exact Or.inl ⟨e, _, retire_of_failed_flush h.coordinator hresult⟩
  · exact Or.inr (retire_of_flush_ok h.coordinator hresult)

omit ctx k c in
/-- No operation hands keys over but the one that is for it, and the direct use of a coordinator. -/
theorem handed_perform
    {operation : Operation} (htake : operation ≠ .takeKeys)
    (hdirect : ∀ errand, operation = .coordinate errand → t.coordinator = none) :
    handed (perform operation t b).1 = [] := by
  cases operation with
  | takeKeys => exact absurd rfl htake
  | coordinate errand => simp [perform, coordinate, hdirect errand rfl, handed]
  | push | pop => rfl
  | save | run | runNow | flush | enable | disable | commit | rollback =>
      exact Coordinator.handed_andThen _ _ (fun _ => rfl)

theorem Owned.turn_of_lent
    (h : Owned ctx k t c b) {operation : Operation} {errand : Coordinator.Operation}
    (hlends : operation.lends = true) (herrand : t.errand? operation = some errand) :
    Turn ctx k t c b (t.stages operation b) (t.record operation b k)
      (perform operation t b).2.1 (handed (perform operation t b).1) := by
  have hnot : ∀ policy, operation ≠ .enable policy := by
    rintro policy rfl
    cases hlends
  rw [record_eq hnot, h.stages_of_errand herrand,
    perform_of_lent h.active h.coordinator hlends herrand, h.context]
  exact .errand errand rfl rfl

/-- An operation that lets go of the coordinator is a release of it, or an errand if the flush
fails; an enabling replaces it. -/
theorem Owned.turn_of_retired
    (h : Owned ctx k t c b) {operation : Operation} {errand : Coordinator.Operation}
    (hretires : operation.retires = true) (herrand : t.errand? operation = some errand) :
    Turn ctx k t c b (t.stages operation b) (t.record operation b k)
      (perform operation t b).2.1 (handed (perform operation t b).1) := by
  have hstages := h.stages_of_errand herrand
  obtain ⟨rfl, hperform⟩ := perform_of_retired h.active hretires herrand b
  have hsilent : handed (Coordinator.perform ctx (.flush false) c b).1 = [] :=
    Coordinator.handed_perform (by simp) c b
  rcases h.retire_cases with ⟨e, after, hretire⟩ | ⟨after, hretire⟩
  · rw [hretire] at hperform
    have hhanded : handed (perform operation t b).1 =
        handed (Coordinator.perform ctx (.flush false) c b).1 := by
      rw [hperform, hsilent]
      rfl
    rw [record_of_error (congrArg Prod.fst hperform), hstages, hhanded, hperform]
    exact .errand (.flush false) rfl rfl
  · rw [hretire] at hperform
    have hrecord : (∀ policy, operation ≠ .enable policy) →
        t.record operation b k = k.extend (t.stages operation b) :=
      fun hnot => record_eq hnot t b k
    cases operation with
    | enable policy =>
        rw [record_of_enabled (congrArg Prod.fst hperform), hstages, hperform]
        exact .replace policy rfl rfl
    | disable | commit =>
        rw [hrecord nofun, hstages, hperform]
        exact .release rfl rfl
    | save | run | runNow | flush | coordinate | push | pop | takeKeys | rollback => cases hretires

theorem Owned.turn (h : Owned ctx k t c b) (operation : Operation) :
    Turn ctx k t c b (t.stages operation b) (t.record operation b k)
      (perform operation t b).2.1 (handed (perform operation t b).1) := by
  have hrecord : (∀ policy, operation ≠ .enable policy) →
      t.record operation b k = k.extend (t.stages operation b) :=
    fun hnot => record_eq hnot t b k
  cases operation with
  | save | run | runNow | flush | coordinate => exact h.turn_of_lent rfl rfl
  | disable | commit => exact h.turn_of_retired rfl rfl
  | enable policy =>
      rcases hpolicy : policy.check with cause | checked
      · have hperform := perform_of_rejected h.active hpolicy b
        rw [record_of_error (congrArg Prod.fst hperform),
          stages_of_no_errand (errand?_of_rejected hpolicy t), Chronicle.extend_nil, hperform]
        exact .idle rfl h.coordinator
      · exact h.turn_of_retired rfl (errand?_of_check hpolicy t)
  | push | pop =>
      rw [hrecord (by simp), stages_of_no_errand rfl, Chronicle.extend_nil]
      exact .idle rfl h.coordinator
  | takeKeys =>
      have hperform : perform .takeKeys t b = (.ok (.keys (t.keys.insertAll c.keys.entries)),
          { t with keys := ∅, coordinator := some c.takeKeys.2 }, b) := by
        simp [perform, takeKeys, h.coordinator, Coordinator.takeKeys]
      rw [hrecord (by simp), h.stages_of_errand rfl, hperform]
      exact .take rfl rfl
  | rollback =>
      have hhanded : handed (perform .rollback t b).1 = [] := handed_perform (by simp) (by simp)
      rw [hrecord (by simp), h.stages_of_errand rfl, hhanded, perform, andThen_pure_snd, rollback,
        whileActive_of_active h.active]
      exact .abandon rfl rfl rfl

omit [Store σ] in
/-- An action of an active transaction that leaves the keys alone does so in every state, and does
not bring a rolled back transaction to life. -/
theorem keys_whileActive
    {α β : Type} {action : Transaction → Backing (Watched σ) → Step Transaction (Watched σ) α}
    (hkeys : (action t b).2.1.keys = t.keys) (answer : α → β) :
    ((t.whileActive b action).andThen (fun a t b => (.ok (answer a), t, b))).2.1.keys = t.keys ∧
      (t.state = .rolledBack →
        ((t.whileActive b action).andThen (fun a t b => (.ok (answer a), t, b))).2.1.state =
          .rolledBack) := by
  rw [andThen_pure_snd]
  constructor
  · unfold whileActive
    split
    · exact hkeys
    · rfl
  · intro hrolled
    simp [whileActive, hrolled]

/-- Without a coordinator the keys are only changed by handing them over, and a transaction that was
rolled back remains so. -/
theorem keys_perform_of_none
    (h : t.coordinator = none) {operation : Operation}
    (hnot : ∀ policy, operation ≠ .enable policy) (htake : operation ≠ .takeKeys)
    (b : Backing (Watched σ)) :
    (perform operation t b).2.1.keys = t.keys ∧
      (t.state = .rolledBack → (perform operation t b).2.1.state = .rolledBack) := by
  have hexecute : ∀ request, (t.executeNow request b).2.1.keys = t.keys := fun _ => rfl
  have hretire : (t.retire b).2.1.keys = t.keys := by
    simp [retire, h]
  cases operation with
  | enable policy => exact absurd rfl (hnot policy)
  | takeKeys => exact absurd rfl htake
  | save record => exact keys_whileActive (by simp [h, hexecute]) _
  | run statement => exact keys_whileActive (by simp [h, hexecute]) _
  | runNow statement => exact keys_whileActive (by simp [h, hexecute]) _
  | flush => exact keys_whileActive (by simp [h]) _
  | disable => exact keys_whileActive hretire _
  | commit => exact keys_whileActive (by simp [retire, h, Step.andThen]) _
  | rollback => exact keys_whileActive rfl _
  | coordinate operation => simp [perform, coordinate, h]
  | push | pop => exact ⟨rfl, id⟩

/-- Where there is no coordinator an enabling takes one on, unless the policy is refused or the
transaction has ended. -/
theorem Bare.lull_enable (h : Bare ctx k t b) (policy : Policy) :
    Lull k t (t.record (.enable policy) b k) (perform (.enable policy) t b).2.1
      (handed (perform (.enable policy) t b).1) := by
  have hstages := stages_of_none h.coordinator (.enable policy) b
  rcases enable_of_none h.coordinator policy b with ⟨e, hperform⟩ | ⟨hactive, hperform⟩
  · rw [record_of_error (congrArg Prod.fst hperform), hstages, hperform, Chronicle.extend_nil]
    exact .idle rfl h.coordinator id
  · rw [record_of_enabled (congrArg Prod.fst hperform), hstages, hperform, Chronicle.extend_nil]
    exact .hire policy hactive rfl rfl

theorem Bare.lull (h : Bare ctx k t b) (operation : Operation) :
    Lull k t (t.record operation b k) (perform operation t b).2.1
      (handed (perform operation t b).1) := by
  by_cases htake : operation = .takeKeys
  · subst htake
    have hrecord : t.record .takeKeys b k = k := by
      simp [record, stages_of_none h.coordinator]
    have hperform : perform .takeKeys t b = (.ok (.keys t.keys), { t with keys := ∅ }, b) := by
      simp [perform, takeKeys, h.coordinator]
    rw [hrecord, hperform]
    exact .take rfl h.coordinator rfl
  by_cases henable : ∃ policy, operation = .enable policy
  · obtain ⟨policy, rfl⟩ := henable
    exact h.lull_enable policy
  · have hnot : ∀ policy, operation ≠ .enable policy :=
      fun policy heq => henable ⟨policy, heq⟩
    obtain ⟨-, hcoordinator, -⟩ := perform_of_none h.coordinator hnot b
    obtain ⟨hkeys, hstate⟩ := keys_perform_of_none h.coordinator hnot htake b
    have hhanded := handed_perform (b := b) htake (fun _ _ => h.coordinator)
    rw [record_eq hnot, stages_of_none h.coordinator, Chronicle.extend_nil, hhanded]
    exact .idle hkeys hcoordinator hstate

end Steps

/-! ## One coordinator that accepts -/

/-- Whether a request was accepted in a history. -/
def accepts (history : List (Stage σ)) : Bool :=
  !(accepted history).isEmpty

theorem accepts_eq_false_iff {history : List (Stage σ)} :
    accepts history = false ↔ accepted history = [] := by
  simp [accepts]

/-- At most one of the coordinators has accepted requests. -/
def Chronicle.Single (k : Chronicle σ) : Prop :=
  k.epochs.countP accepts ≤ 1

namespace Chronicle

variable {k : Chronicle σ} {stages : List (Stage σ)}

theorem countP_epochs (k : Chronicle σ) :
    k.epochs.countP accepts = k.past.countP accepts + if accepts k.present then 1 else 0 := by
  rw [epochs, List.countP_append, List.countP_singleton]

theorem single_renew : k.renew.Single ↔ k.Single := by
  rw [Single, Single, countP_epochs]
  rfl

/-- The present coordinator has accepted nothing, or none of the past ones has accepted anything. -/
theorem Single.cases (h : k.Single) :
    accepted k.present = [] ∨ ∀ epoch ∈ k.past, accepted epoch = [] := by
  rw [Single, countP_epochs] at h
  by_cases hpresent : accepts k.present
  · right
    rw [if_pos hpresent] at h
    have hnone : k.past.countP accepts = 0 := by omega
    intro epoch hmem
    exact accepts_eq_false_iff.1 (Bool.eq_false_iff.2 (List.countP_eq_zero.1 hnone epoch hmem))
  · exact Or.inl (accepts_eq_false_iff.1 (Bool.eq_false_iff.2 hpresent))

theorem Single.of_extend (h : (k.extend stages).Single) : k.Single := by
  have hmono : accepts k.present = true → accepts (k.extend stages).present = true := by
    simp only [extend, accepts, Coordinator.accepted_append, Bool.not_eq_true',
      List.isEmpty_eq_false_iff, ne_eq, List.append_eq_nil_iff, not_and]
    exact fun hpresent hnone => absurd hnone hpresent
  rw [Single, countP_epochs] at h ⊢
  have hpast : (k.extend stages).past = k.past := rfl
  rw [hpast] at h
  split at h
  · split <;> omega
  · next hnot => rw [if_neg (fun hpresent => hnot (hmono hpresent))]; exact h

end Chronicle

/-! ## The first number is given again -/

/-- Every coordinator that has accepted requests has given the first number to one of them, and the
present one is unused if it has accepted none. -/
def Started (k : Chronicle σ) (t : Transaction) : Prop :=
  (∀ epoch ∈ k.epochs, Opens epoch) ∧
    ∀ c, t.coordinator = some c → accepted k.present = [] → c.Unused

section Start

variable {k next : Chronicle σ} {t after : Transaction}

theorem forall_epochs {P : List (Stage σ) → Prop} :
    (∀ epoch ∈ k.epochs, P epoch) ↔ (∀ epoch ∈ k.past, P epoch) ∧ P k.present := by
  simp [Chronicle.epochs, or_imp, forall_and]

theorem Started.errand [Store σ]
    {c : Coordinator} (h : Started k t) (hcoordinator : t.coordinator = some c) (ctx : Context)
    (errand : Coordinator.Operation) (b : Backing σ) :
    (∀ epoch ∈ (k.extend (Coordinator.stages ctx errand c b)).epochs, Opens epoch) ∧
      (accepted (k.extend (Coordinator.stages ctx errand c b)).present = [] →
        (Coordinator.perform ctx errand c b).2.1.Unused) := by
  obtain ⟨hepochs, hunused⟩ := h
  rw [forall_epochs] at hepochs ⊢
  obtain ⟨hpast, hpresent⟩ := hepochs
  simp only [Chronicle.extend, Opens, Coordinator.accepted_append, List.map_append,
    List.mem_append, List.append_eq_nil_iff]
  by_cases hnone : accepted k.present = []
  · rcases (hunused c hcoordinator hnone).perform ctx errand b with
      ⟨hsilent, hstill⟩ | hfirst
    · exact ⟨⟨hpast, Or.inl ⟨hnone, hsilent⟩⟩, fun _ => hstill⟩
    · refine ⟨⟨hpast, Or.inr (Or.inr hfirst)⟩, ?_⟩
      rintro ⟨-, hsilent⟩
      rw [hsilent] at hfirst
      cases hfirst
  · have hfirst := hpresent.resolve_left hnone
    exact ⟨⟨hpast, Or.inr (Or.inl hfirst)⟩, fun h => absurd h.1 hnone⟩

theorem started_renew
    {policy : Policy} (hepochs : ∀ epoch ∈ k.epochs, Opens epoch)
    (hnew : after.coordinator = some (.new policy)) : Started k.renew after := by
  refine ⟨forall_epochs.2 ⟨hepochs, Or.inl rfl⟩, ?_⟩
  intro d hd _
  cases hnew.symm.trans hd
  exact ⟨rfl, rfl⟩

theorem started_of_none
    (hepochs : ∀ epoch ∈ k.epochs, Opens epoch) (hnone : after.coordinator = none) :
    Started k after :=
  ⟨hepochs, fun _ hd => nomatch hnone.symm.trans hd⟩

theorem Started.turn [Store σ]
    {ctx : Context} {c : Coordinator} {b : Backing σ} {stages : List (Stage σ)}
    {given : List (RequestId × Datum)} (h : Started k t) (hcoordinator : t.coordinator = some c)
    (hturn : Turn ctx k t c b stages next after given) : Started next after := by
  have hepochs : ∀ errand, ∀ epoch ∈ (k.extend (Coordinator.stages ctx errand c b)).epochs,
      Opens epoch :=
    fun errand => (h.errand hcoordinator ctx errand b).1
  have hstill : ∀ errand, after.coordinator = some (Coordinator.perform ctx errand c b).2.1 →
      Started (k.extend (Coordinator.stages ctx errand c b)) after := by
    intro errand hstays
    refine ⟨hepochs errand, fun d hd hnone => ?_⟩
    cases hstays.symm.trans hd
    exact (h.errand hcoordinator ctx errand b).2 hnone
  cases hturn with
  | idle _ hstays => exact ⟨h.1, fun d hd => h.2 d (hcoordinator.trans (hstays.symm.trans hd))⟩
  | errand errand _ hstays => exact hstill errand hstays
  | take _ hstays => exact hstill .takeKeys hstays
  | release _ hgone => exact started_of_none (hepochs (.flush false)) hgone
  | replace policy _ hnew => exact started_renew (hepochs (.flush false)) hnew
  | abandon _ hgone => exact started_of_none (hepochs .clear) hgone

theorem Started.lull
    {given : List (RequestId × Datum)} (h : Started k t) (hlull : Lull k t next after given) :
    Started next after := by
  cases hlull with
  | idle _ hnone _ => exact started_of_none h.1 hnone
  | take _ hnone _ => exact started_of_none h.1 hnone
  | hire policy _ _ hnew => exact started_renew h.1 hnew

end Start

theorem Life.started [Store σ]
    {ctx : Context} {k : Chronicle (Watched σ)} {t : Transaction} {b : Backing (Watched σ)}
    (h : Life ctx k t b) : Started k t := by
  induction h with
  | new b _ => exact ⟨fun epoch hmem => Or.inl (by rw [List.mem_singleton.1 hmem]; rfl), nofun⟩
  | perform operation hlife ih =>
      rcases hlife.kept with hbare | ⟨c, howned⟩
      · exact ih.lull (hbare.lull operation)
      · exact ih.turn howned.coordinator (howned.turn operation)
  | change other _ _ ih => exact ih

/-- Of lists without repetitions that all hold one value, unless they are empty, no value is
repeated in a row exactly if at most one is not empty. -/
theorem nodup_flatMap_iff {α β : Type} {f : α → List β} {first : β} {entries : List α}
    (hfirst : ∀ entry ∈ entries, f entry = [] ∨ first ∈ f entry)
    (hnodup : ∀ entry ∈ entries, (f entry).Nodup) :
    (entries.flatMap f).Nodup ↔ entries.countP (fun entry => !(f entry).isEmpty) ≤ 1 := by
  induction entries with
  | nil => simp
  | cons entry rest ih =>
      have hrest := ih (fun other hmem => hfirst other (List.mem_cons_of_mem _ hmem))
        (fun other hmem => hnodup other (List.mem_cons_of_mem _ hmem))
      rcases hfirst entry List.mem_cons_self with hnone | hhead
      · simpa [hnone] using hrest
      · have hsome : f entry ≠ [] := List.ne_nil_of_mem hhead
        have hcount : (entry :: rest).countP (fun entry => !(f entry).isEmpty) =
            rest.countP (fun entry => !(f entry).isEmpty) + 1 :=
          List.countP_cons_of_pos (by simpa using hsome)
        rw [hcount, List.flatMap_cons]
        constructor
        · intro hwhole
          have hdisjoint := (List.nodup_append.1 hwhole).2.2
          have hzero : rest.countP (fun entry => !(f entry).isEmpty) = 0 := by
            rw [List.countP_eq_zero]
            intro other hmem hother
            have hsecond : first ∈ f other :=
              (hfirst other (List.mem_cons_of_mem _ hmem)).resolve_left (by simpa using hother)
            exact hdisjoint first hhead first (List.mem_flatMap.2 ⟨other, hmem, hsecond⟩) rfl
          omega
        · intro hle
          have hzero : rest.countP (fun entry => !(f entry).isEmpty) = 0 := by omega
          have hnil : rest.flatMap f = [] := by
            rw [List.flatMap_eq_nil_iff]
            intro other hmem
            simpa using List.countP_eq_zero.1 hzero other hmem
          rw [hnil, List.append_nil]
          exact hnodup entry List.mem_cons_self

/-! ## Keys in custody -/

/-- What is owed after new keys and after some were handed over. -/
def settle (owed new given : List (RequestId × Datum)) : List (RequestId × Datum) :=
  (owed ++ new).filter (fun pair => pair ∉ given)

@[simp] theorem settle_nothing (owed new : List (RequestId × Datum)) :
    settle owed new [] = owed ++ new := by
  simp [settle]

/-- A run of operations from a new transaction over a recording store, with the keys that it owes:
those of the requests that were executed in a flush, as long as they have not been handed over. -/
inductive Owing (ctx : Context) :
    List (RequestId × Datum) → Chronicle (Watched Memory) → Transaction →
      Backing (Watched Memory) → Prop
  | new (b : Backing (Watched Memory)) : b.store.seen = [] → Owing ctx [] {} (.new ctx) b
  | perform {owed : List (RequestId × Datum)} {k : Chronicle (Watched Memory)} {t : Transaction}
      {b : Backing (Watched Memory)} (operation : Operation) : Owing ctx owed k t b →
        Owing ctx
          (settle owed (issued ctx (t.stages operation b)) (handed (perform operation t b).1))
          (t.record operation b k) (perform operation t b).2.1 (perform operation t b).2.2
  | change {owed : List (RequestId × Datum)} {k : Chronicle (Watched Memory)} {t : Transaction}
      {b : Backing (Watched Memory)} (other : Backing (Watched Memory)) : Owing ctx owed k t b →
        other.store.seen = b.store.seen → Owing ctx owed k t other

/-- What is known of the keys while the transaction has a coordinator. -/
structure Stocked (ctx : Context) (owed : List (RequestId × Datum))
    (k : Chronicle (Watched Memory)) (t : Transaction) (c : Coordinator) : Prop where
  /-- The keys that the transaction keeps are of past coordinators. -/
  retired : (∀ epoch ∈ k.past, accepted epoch = []) → t.keys = ∅
  /-- The keys of the coordinator are those of its own requests. -/
  live : ∀ pair ∈ c.keys.entries, pair.1 ∈ (issued ctx k.present).map Prod.fst
  owed : k.Single → ∀ pair ∈ owed, pair ∈ t.keys.entries ∨ pair ∈ c.keys.entries

/-- What is known of the keys while the transaction has no coordinator. -/
structure Shelved (owed : List (RequestId × Datum)) (k : Chronicle (Watched Memory))
    (t : Transaction) : Prop where
  retired : (∀ epoch ∈ k.epochs, accepted epoch = []) → t.keys = ∅
  owed : t.state ≠ .rolledBack → k.Single → ∀ pair ∈ owed, pair ∈ t.keys.entries

section Custody

variable {ctx : Context} {owed given : List (RequestId × Datum)}
  {k next : Chronicle (Watched Memory)} {t after : Transaction} {c : Coordinator}
  {b : Backing (Watched Memory)}

theorem Stocked.keys_eq_nil
    (h : Stocked ctx owed k t c) {earlier : List Seen}
    {m : Coordinator.Moment (Watched Memory)} (htally : Tally ctx earlier k.present m)
    (hpresent : accepted k.present = []) : c.keys.entries = [] := by
  rw [List.eq_nil_iff_forall_not_mem]
  intro pair hmem
  have hlive := h.live pair hmem
  rw [htally.issued_eq_nil hpresent] at hlive
  cases hlive

/-- If at most one coordinator has accepted requests, the keys of the present one and those of the
past ones do not meet: there are only the ones or the others. -/
theorem Stocked.mem_insertAll
    (h : Stocked ctx owed k t c) {earlier : List Seen}
    {m : Coordinator.Moment (Watched Memory)} (htally : Tally ctx earlier k.present m)
    (hsingle : k.Single) {pair : RequestId × Datum}
    (hpair : pair ∈ t.keys.entries ∨ pair ∈ c.keys.entries) :
    pair ∈ (t.keys.insertAll c.keys.entries).entries := by
  rcases hsingle.cases with hpresent | hpast
  · rw [h.keys_eq_nil htally hpresent] at hpair ⊢
    exact hpair.resolve_right List.not_mem_nil
  · rw [h.retired hpast] at hpair ⊢
    exact (Dictionary.perm_insertAll c.keys.nodup_keys).mem_iff.2
      (hpair.resolve_left List.not_mem_nil)

theorem Stocked.errand_takeKeys
    (h : Stocked ctx owed k t c) (hkeys : after.keys = t.keys) (b : Backing (Watched Memory)) :
    Stocked ctx
      (settle owed (issued ctx (Coordinator.stages ctx .takeKeys c b))
        (handed (Coordinator.perform ctx .takeKeys c b).1))
      (k.extend (Coordinator.stages ctx .takeKeys c b)) after
      (Coordinator.perform ctx .takeKeys c b).2.1 where
  retired := by
    rw [hkeys]
    exact h.retired
  live := fun pair hmem => by cases hmem
  owed := by
    intro hsingle pair hmem
    obtain ⟨howed, hnot⟩ := List.mem_filter.1 hmem
    rw [Coordinator.issued_takeKeys, List.append_nil] at howed
    rw [hkeys]
    rcases h.owed hsingle.of_extend pair howed with hkept | hlive
    · exact Or.inl hkept
    · exact absurd hlive (of_decide_eq_true hnot)

/-- What the coordinator does keeps every key that is owed, unless it hands the key over. -/
theorem Stocked.errand
    (h : Stocked ctx owed k t c) (howned : Owned ctx k t c b) (errand : Coordinator.Operation)
    (hkeys : after.keys = t.keys) :
    Stocked ctx
      (settle owed (issued ctx (Coordinator.stages ctx errand c b))
        (handed (Coordinator.perform ctx errand c b).1))
      (k.extend (Coordinator.stages ctx errand c b)) after
      (Coordinator.perform ctx errand c b).2.1 := by
  by_cases htake : errand = .takeKeys
  · subst htake
    exact h.errand_takeKeys hkeys b
  obtain ⟨flag, htally⟩ := howned.present
  obtain ⟨n, hlimited, hwell⟩ := htally.wellFormed
  obtain ⟨last, hlast⟩ := htally.perform errand
  have hnodup := hlast.issued_nodup
  rw [Coordinator.issued_append, List.map_append, List.nodup_append] at hnodup
  obtain ⟨-, hnew, hfresh⟩ := hnodup
  -- The requests with new keys have other numbers than those with earlier ones.
  have hapart : ((c.keys.entries ++ issued ctx (Coordinator.stages ctx errand c b)).map
      Prod.fst).Nodup := by
    rw [List.map_append, List.nodup_append]
    refine ⟨c.keys.nodup_keys, hnew, ?_⟩
    intro id hheld other hissued
    obtain ⟨pair, hpair, rfl⟩ := List.mem_map.1 hheld
    exact hfresh _ (h.live pair hpair) other hissued
  have hfiled := Dictionary.perm_insertAll hapart
  rw [← Coordinator.keys_perform hwell hlimited.le htake b] at hfiled
  rw [Coordinator.handed_perform htake, settle_nothing]
  refine ⟨?_, ?_, ?_⟩
  · rw [hkeys]
    exact h.retired
  · intro pair hmem
    rw [Chronicle.extend, Coordinator.issued_append, List.map_append, List.mem_append]
    rcases List.mem_append.1 (hfiled.mem_iff.1 hmem) with hheld | hissued
    · exact Or.inl (h.live pair hheld)
    · exact Or.inr (List.mem_map_of_mem hissued)
  · intro hsingle pair hmem
    rw [hkeys, hfiled.mem_iff, List.mem_append]
    rcases List.mem_append.1 hmem with howed | hissued
    · exact (h.owed hsingle.of_extend pair howed).imp_right Or.inl
    · exact Or.inr (Or.inr hissued)

theorem Stocked.release
    (h : Stocked ctx owed k t c) {earlier : List Seen}
    {m : Coordinator.Moment (Watched Memory)} (htally : Tally ctx earlier k.present m)
    (hkeys : after.keys = t.keys.insertAll c.keys.entries) : Shelved owed k after where
  retired := by
    intro hnone
    obtain ⟨hpast, hpresent⟩ := forall_epochs.1 hnone
    rw [hkeys, h.retired hpast, h.keys_eq_nil htally hpresent]
    rfl
  owed := by
    intro _ hsingle pair hmem
    rw [hkeys]
    exact h.mem_insertAll htally hsingle (h.owed hsingle pair hmem)

theorem Shelved.hire
    (h : Shelved owed k t) (policy : Policy) (hstate : t.state ≠ .rolledBack)
    (hkeys : after.keys = t.keys) : Stocked ctx owed k.renew after (.new policy) where
  retired := by
    rw [hkeys]
    exact h.retired
  live := fun pair hmem => by cases hmem
  owed := by
    intro hsingle pair hmem
    rw [hkeys]
    exact Or.inl (h.owed hstate (Chronicle.single_renew.1 hsingle) pair hmem)

/-- The invariant of the keys that a transaction owes. -/
def Custody (ctx : Context) (owed : List (RequestId × Datum)) (k : Chronicle (Watched Memory))
    (t : Transaction) : Prop :=
  (∀ c, t.coordinator = some c → Stocked ctx owed k t c) ∧
    (t.coordinator = none → Shelved owed k t)

theorem Custody.of_stocked (h : Stocked ctx owed k t c) (hcoordinator : t.coordinator = some c) :
    Custody ctx owed k t := by
  constructor
  · intro d hd
    cases hcoordinator.symm.trans hd
    exact h
  · intro hnone
    cases hcoordinator.symm.trans hnone

theorem Custody.of_shelved (h : Shelved owed k t) (hcoordinator : t.coordinator = none) :
    Custody ctx owed k t := by
  constructor
  · intro d hd
    cases hcoordinator.symm.trans hd
  · exact fun _ => h

theorem Stocked.turn
    {stages : List (Stage (Watched Memory))} (h : Stocked ctx owed k t c)
    (howned : Owned ctx k t c b) (hturn : Turn ctx k t c b stages next after given) :
    Custody ctx (settle owed (issued ctx stages) given) next after := by
  obtain ⟨flag, htally⟩ := howned.present
  obtain ⟨last, hflushed⟩ := htally.perform (.flush false)
  have hshelved : ∀ later : Transaction, later.keys = t.keys.insertAll
      (Coordinator.perform ctx (.flush false) c b).2.1.keys.entries →
        Shelved (settle owed (issued ctx (Coordinator.stages ctx (.flush false) c b)) [])
          (k.extend (Coordinator.stages ctx (.flush false) c b)) later := by
    intro later hkeys
    have hstocked := h.errand howned (.flush false) rfl
    rw [Coordinator.handed_perform (by simp)] at hstocked
    exact hstocked.release hflushed hkeys
  cases hturn with
  | idle hkeys hstays =>
      refine .of_stocked ⟨?_, h.live, ?_⟩ hstays
      · rw [hkeys]
        exact h.retired
      · rw [hkeys, settle_nothing, issued, List.flatMap_nil, List.append_nil]
        exact h.owed
  | errand errand hkeys hstays => exact .of_stocked (h.errand howned errand hkeys) hstays
  | take hkeys hstays =>
      refine .of_stocked ⟨fun _ => hkeys, (fun pair hmem => by cases hmem), ?_⟩ hstays
      intro hsingle pair hmem
      obtain ⟨howed, hnot⟩ := List.mem_filter.1 hmem
      rw [Coordinator.issued_takeKeys, List.append_nil] at howed
      have hheld := h.mem_insertAll htally hsingle.of_extend (h.owed hsingle.of_extend pair howed)
      exact absurd hheld (of_decide_eq_true hnot)
  | release hkeys hgone => exact .of_shelved (hshelved _ hkeys) hgone
  | replace policy hkeys hnew =>
      let between : Transaction := { t with
        keys := t.keys.insertAll (Coordinator.perform ctx (.flush false) c b).2.1.keys.entries }
      have hactive : between.state ≠ .rolledBack := by
        simp [between, howned.active]
      exact .of_stocked ((hshelved between rfl).hire policy hactive hkeys) hnew
  | abandon hkeys hgone hrolled =>
      refine .of_shelved ⟨?_, fun hnot => absurd hrolled hnot⟩ hgone
      intro hnone
      rw [hkeys]
      exact h.retired (forall_epochs.1 hnone).1

theorem Shelved.lull
    (h : Shelved owed k t) (hlull : Lull k t next after given) :
    Custody ctx (settle owed [] given) next after := by
  cases hlull with
  | idle hkeys hnone hrolled =>
      refine .of_shelved ⟨?_, ?_⟩ hnone
      · rw [hkeys]
        exact h.retired
      · intro hnot
        rw [hkeys, settle_nothing, List.append_nil]
        exact h.owed (fun hstate => hnot (hrolled hstate))
  | take hkeys hnone hstate =>
      refine .of_shelved ⟨fun _ => hkeys, ?_⟩ hnone
      intro hnot hsingle pair hmem
      obtain ⟨howed, hleft⟩ := List.mem_filter.1 hmem
      rw [List.append_nil] at howed
      rw [hstate] at hnot
      exact absurd (h.owed hnot hsingle pair howed) (of_decide_eq_true hleft)
  | hire policy hactive hkeys hnew =>
      rw [settle_nothing, List.append_nil]
      exact .of_stocked (h.hire policy (by simp [hactive]) hkeys) hnew

theorem Owing.life (h : Owing ctx owed k t b) : Life ctx k t b := by
  induction h with
  | new b hseen => exact .new b hseen
  | perform operation _ ih => exact .perform operation ih
  | change other _ hseen ih => exact .change other ih hseen

theorem Owing.custody (h : Owing ctx owed k t b) : Custody ctx owed k t := by
  induction h with
  | new b hseen => exact .of_shelved ⟨fun _ => rfl, fun _ _ pair hmem => nomatch hmem⟩ rfl
  | perform operation howing ih =>
      rcases howing.life.kept with hbare | ⟨c, howned⟩
      · rw [stages_of_none hbare.coordinator]
        exact (ih.2 hbare.coordinator).lull (hbare.lull operation)
      · exact (ih.1 c howned.coordinator).turn howned (howned.turn operation)
  | change other _ _ ih => exact ih

/-- No two requests of a transaction have the same number exactly if at most one of its coordinators
has accepted requests. -/
theorem Life.nodup_numbers_iff (h : Life ctx k t b) :
    (k.epochs.flatMap (fun epoch => (accepted epoch).map Prod.fst)).Nodup ↔ k.Single := by
  have hnodup : ∀ epoch ∈ k.epochs, ((accepted epoch).map Prod.fst).Nodup := by
    rcases h.kept with hbare | ⟨c, howned⟩
    · exact fun epoch hmem => (hbare.closed epoch hmem).numbered
    · obtain ⟨given, htally⟩ := howned.present
      obtain ⟨n, -, harrived⟩ := htally.numbered
      exact forall_epochs.2 ⟨fun epoch hmem => (howned.past epoch hmem).numbered, harrived.nodup⟩
  have hfirst : ∀ epoch ∈ k.epochs, (accepted epoch).map Prod.fst = [] ∨
      ⟨1⟩ ∈ (accepted epoch).map Prod.fst := by
    intro epoch hmem
    rw [List.map_eq_nil_iff]
    exact h.started.1 epoch hmem
  have hcount : (fun epoch : List (Stage (Watched Memory)) =>
      !((accepted epoch).map Prod.fst).isEmpty) = accepts := by
    funext epoch
    simp [accepts]
  rw [nodup_flatMap_iff hfirst hnodup, Chronicle.Single, hcount]

/-- What is owed is handed over, if at most one coordinator has accepted requests. -/
theorem Owing.mem_takeKeys
    (h : Owing ctx owed k t b) (hstate : t.state ≠ .rolledBack) (hsingle : k.Single)
    {pair : RequestId × Datum} (hmem : pair ∈ owed) : pair ∈ t.takeKeys.1.entries := by
  rcases h.life.kept with hbare | ⟨c, howned⟩
  · have hshelved := h.custody.2 hbare.coordinator
    simpa [takeKeys, hbare.coordinator] using hshelved.owed hstate hsingle pair hmem
  · have hstocked := h.custody.1 c howned.coordinator
    obtain ⟨given, htally⟩ := howned.present
    have hheld := hstocked.mem_insertAll htally hsingle (hstocked.owed hsingle pair hmem)
    simpa [takeKeys, Coordinator.takeKeys, howned.coordinator] using hheld

/-- A transaction that was not rolled back has given every request a number of its own, and holds
every key that was generated for one and not handed over, exactly if at most one of its coordinators
has accepted requests. -/
theorem keys_held_iff (h : Owing ctx owed k t b) (hstate : t.state ≠ .rolledBack) :
    ((k.epochs.flatMap (fun epoch => (accepted epoch).map Prod.fst)).Nodup ∧
        ∀ pair ∈ owed, pair ∈ t.takeKeys.1.entries) ↔ k.Single := by
  constructor
  · intro hheld
    exact h.life.nodup_numbers_iff.1 hheld.1
  · intro hsingle
    exact ⟨h.life.nodup_numbers_iff.2 hsingle,
      fun pair hmem => h.mem_takeKeys hstate hsingle hmem⟩

def performOwing (ctx : Context) : List Operation →
    List (RequestId × Datum) × Chronicle (Watched Memory) × Transaction × Backing (Watched Memory) →
    List (RequestId × Datum) × Chronicle (Watched Memory) × Transaction × Backing (Watched Memory)
  | [], now => now
  | operation :: rest, (owed, k, t, b) =>
      performOwing ctx rest
        (settle owed (issued ctx (t.stages operation b)) (handed (perform operation t b).1),
          t.record operation b k, (perform operation t b).2)

theorem Owing.performOwing (operations : List Operation) (h : Owing ctx owed k t b) :
    Owing ctx (performOwing ctx operations (owed, k, t, b)).1
      (performOwing ctx operations (owed, k, t, b)).2.1
      (performOwing ctx operations (owed, k, t, b)).2.2.1
      (performOwing ctx operations (owed, k, t, b)).2.2.2 := by
  induction operations generalizing owed k t b with
  | nil => exact h
  | cons operation rest ih => exact ih (.perform operation h)

def insertion : Statement := ⟨"INSERT INTO a DEFAULT VALUES", []⟩

def afterInsertion (operations : List Operation) :
    List (RequestId × Datum) × Chronicle (Watched Memory) × Transaction ×
      Backing (Watched Memory) :=
  performOwing ⟨.empty, "t", false⟩ (.enable {} :: .run insertion :: operations)
    ([], {}, .new ⟨.empty, "t", false⟩, Coordinator.untouched)

theorem owing_afterInsertion (operations : List Operation) :
    Owing ⟨.empty, "t", false⟩ (afterInsertion operations).1 (afterInsertion operations).2.1
      (afterInsertion operations).2.2.1 (afterInsertion operations).2.2.2 :=
  Owing.performOwing _ (.new _ rfl)

/-- Three inserts go out in two flushes, the last one when batching is enabled once more, and all
their keys are held.  They no longer are when the coordinator that has taken over accepts a fourth
insert. -/
theorem keys_held_of_three_insertions :
    (let now := afterInsertion [.run insertion, .flush, .run insertion, .enable {}]
     now.1 = [(⟨1⟩, Datum.ofNat 1), (⟨2⟩, Datum.ofNat 2), (⟨3⟩, Datum.ofNat 3)] ∧
       now.2.1.epochs.flatMap (fun epoch => (accepted epoch).map Prod.fst) = [⟨1⟩, ⟨2⟩, ⟨3⟩] ∧
       ∀ pair ∈ now.1, pair ∈ now.2.2.1.takeKeys.1.entries) ∧
      let later :=
        afterInsertion [.run insertion, .flush, .run insertion, .enable {}, .run insertion, .flush]
      later.1 = [(⟨1⟩, Datum.ofNat 1), (⟨2⟩, Datum.ofNat 2), (⟨3⟩, Datum.ofNat 3),
          (⟨1⟩, Datum.ofNat 4)] ∧
        ¬((later.2.1.epochs.flatMap (fun epoch => (accepted epoch).map Prod.fst)).Nodup ∧
          ∀ pair ∈ later.1, pair ∈ later.2.2.1.takeKeys.1.entries) := by
  constructor
  · intro now
    have hsingle : now.2.1.Single := by
      unfold Chronicle.Single
      decide +kernel
    obtain ⟨-, hheld⟩ := (keys_held_iff (owing_afterInsertion _) (by decide +kernel)).2 hsingle
    exact ⟨by decide +kernel, by decide +kernel, hheld⟩
  · intro later
    have hsingle : ¬later.2.1.Single := by
      unfold Chronicle.Single
      decide +kernel
    exact ⟨by decide +kernel,
      fun hheld => hsingle ((keys_held_iff (owing_afterInsertion _) (by decide +kernel)).1 hheld)⟩

/-- Where batching is enabled once more before a second insert, both inserts have the first number,
and the key of the first is lost. -/
theorem key_lost_after_second_enabling :
    (afterInsertion [.enable {}, .run insertion, .flush]).2.1.epochs.flatMap
        (fun epoch => (accepted epoch).map Prod.fst) = [⟨1⟩, ⟨1⟩] ∧
      (afterInsertion [.enable {}, .run insertion, .flush]).1 =
        [(⟨1⟩, Datum.ofNat 1), (⟨1⟩, Datum.ofNat 2)] ∧
      (afterInsertion [.enable {}, .run insertion, .flush]).2.2.1.takeKeys.1.entries =
        [(⟨1⟩, Datum.ofNat 2)] := by
  decide

end Custody

end Transaction

end Cascade
