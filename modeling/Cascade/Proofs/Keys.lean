import Mathlib.Data.List.Perm.Subperm
import Cascade.Proofs.Conservation
import Cascade.Proofs.Recording
import Cascade.Proofs.Squeezing
import Cascade.Proofs.Submissions

/-!
# Generated keys

A recording store generates the next number for every insert of a batch call
that asks for keys.  So a flush that succeeds while keys are fetched yields one
key for each insert that waited, in the order in which the inserts are sent,
and the coordinator files it under the number of the request.

The requests of one coordinator have different numbers, so it holds every key
until the keys are handed over.
-/

namespace Cascade

open Json

/-! ## Which calls ask for keys -/

/-- A group is marked as an insert exactly if its text is one. -/
def StatementGroup.Marked (group : StatementGroup) : Prop :=
  group.isInsert = isInsertText group.text

namespace StatementBatch

theorem marked_place
    {text : String} {isInsert : Bool} (hinsert : isInsert = isInsertText text) (entry : Waiting)
    {groups : List StatementGroup} (h : ∀ group ∈ groups, group.Marked) :
    ∀ group ∈ (place text isInsert entry groups).2, group.Marked := by
  induction groups with
  | nil =>
      intro group hmem
      rw [List.mem_singleton.1 hmem]
      exact hinsert
  | cons head rest ih =>
      have hrest := ih (fun group hmem => h group (List.mem_cons_of_mem _ hmem))
      by_cases htext : head.text = text
      · rw [place, if_pos htext]
        exact List.forall_mem_cons.2
          ⟨h head List.mem_cons_self, fun group hmem => h group (List.mem_cons_of_mem _ hmem)⟩
      · rw [place, if_neg htext]
        exact List.forall_mem_cons.2 ⟨h head List.mem_cons_self, hrest⟩

theorem marked_append
    {batch : StatementBatch} (h : ∀ group ∈ batch.groups, group.Marked) (statement : Statement)
    (origin : Option RequestId) :
    ∀ group ∈ (batch.append statement origin).2.groups, group.Marked :=
  marked_place (isInsertText_normalText statement.text).symm _ h

theorem marked_gathered (requests : List (RequestId × Statement)) :
    ∀ group ∈ (gathered requests).groups, group.Marked := by
  rw [gathered_eq_collected, groups_collected]
  intro group hmem
  obtain ⟨text, -, rfl⟩ := List.mem_map.1 hmem
  rfl

end StatementBatch

theorem RecordGroup.marked_planAfter
    (registry : Registry) (batchSize : Nat) (pending : List (RequestId × Record))
    {gathered : StatementBatch} (h : ∀ group ∈ gathered.groups, group.Marked)
    (text? : Option String) (run : Nat) :
    ∀ call ∈ (planAfter registry batchSize pending gathered text? run).calls, call.Marked := by
  induction pending generalizing gathered text? run with
  | nil => exact h
  | cons write rest ih =>
      obtain ⟨id, record⟩ := write
      simp only [planAfter]
      rcases registry.bind record with e | statement
      · exact List.forall_mem_nil _
      · dsimp only
        split
        · intro call hmem
          rcases List.mem_append.1 hmem with hmem | hmem
          · exact h call hmem
          · exact ih (StatementBatch.marked_append (List.forall_mem_nil _) statement (some id)) _ _
              call hmem
        · exact ih (StatementBatch.marked_append h statement (some id)) _ _

theorem Coordinator.WellFormed.marked_calls
    {registry : Registry} {n : Nat} {c : Coordinator} (h : c.WellFormed registry n) :
    ∀ call ∈ c.calls registry, call.Marked := by
  intro call hmem
  rcases List.mem_append.1 hmem with hmem | hmem
  · obtain ⟨requests, hrequests, -⟩ := h.statements
    rw [hrequests] at hmem
    exact StatementBatch.marked_gathered requests call hmem
  · obtain ⟨group, -, hcall⟩ := List.mem_flatMap.1 hmem
    exact RecordGroup.marked_planAfter registry _ group.pending (List.forall_mem_nil _) none 0
      call hcall

/-! ## The keys of a pass over calls -/

/-- How many parcels are inserts. -/
def inserts (parcels : List Parcel) : Nat :=
  parcels.countP (fun parcel => parcel.statement.isInsert)

/-- The keys of some parcels with the requests that they belong to, after `issued` keys: the next
numbers, one for each insert, in order. -/
def keyed (issued : Nat) (parcels : List Parcel) : List (RequestId × Datum) :=
  ((parcels.filter (fun parcel => parcel.statement.isInsert)).zipIdx (issued + 1)).filterMap
    (fun place => place.1.origin.map (fun id => (id, Datum.ofNat place.2)))

theorem keyed_append (issued : Nat) (first second : List Parcel) :
    keyed issued (first ++ second) =
      keyed issued first ++ keyed (issued + inserts first) second := by
  have hstart : issued + 1 + (first.filter (fun parcel => parcel.statement.isInsert)).length =
      issued + inserts first + 1 := by
    rw [inserts, List.countP_eq_length_filter]
    omega
  rw [keyed, List.filter_append, List.zipIdx_append, List.filterMap_append, hstart]
  rfl

theorem keyed_fst (issued : Nat) (parcels : List Parcel) :
    (keyed issued parcels).map Prod.fst =
      (parcels.filter (fun parcel => parcel.statement.isInsert)).filterMap Parcel.origin := by
  rw [keyed, List.map_filterMap]
  conv_rhs => rw [← List.zipIdx_map_fst (issued + 1)
    (parcels.filter (fun parcel => parcel.statement.isInsert)), List.filterMap_map]
  congr 1
  funext place
  simp [Function.comp_def]

namespace StatementGroup

theorem isInsert_of_mem_parcels
    {group : StatementGroup} {parcel : Parcel} (h : parcel ∈ group.parcels) :
    parcel.statement.isInsert = isInsertText group.text := by
  obtain ⟨entry, -, rfl⟩ := List.mem_map.1 h
  rfl

theorem keyed_parcels (issued : Nat) (group : StatementGroup) :
    keyed issued group.parcels =
      if isInsertText group.text then
        keysOf group.waiting ((List.range' (issued + 1) group.size).map Datum.ofNat)
      else [] := by
  split
  · next h =>
    have hall : group.parcels.filter (fun parcel => parcel.statement.isInsert) = group.parcels :=
      List.filter_eq_self.2 (fun parcel hmem => (isInsert_of_mem_parcels hmem).trans h)
    rw [keyed, hall, List.zipIdx_eq_zip_range', length_parcels, parcels, keysOf, List.zip_map_left,
      List.zip_map_right, List.filterMap_map, List.filterMap_map]
    rfl
  · next h =>
    have hnone : group.parcels.filter (fun parcel => parcel.statement.isInsert) = [] := by
      rw [List.filter_eq_nil_iff]
      intro parcel hmem
      rw [isInsert_of_mem_parcels hmem]
      exact h
    rw [keyed, hnone]
    rfl

theorem inserts_parcels (group : StatementGroup) :
    inserts group.parcels = if isInsertText group.text then group.size else 0 := by
  split
  · next h =>
    rw [← length_parcels, inserts, List.countP_eq_length]
    exact fun parcel hmem => (isInsert_of_mem_parcels hmem).trans h
  · next h =>
    rw [inserts, List.countP_eq_zero]
    intro parcel hmem
    rw [isInsert_of_mem_parcels hmem]
    exact h

end StatementGroup

namespace Memory

theorem keysIssued_record (entry : Executed) (m : Memory) :
    (m.record entry).2.keysIssued = m.keysIssued := by
  unfold record
  dsimp only
  split <;> rfl

/-- A call that is accepted yields the next numbers if keys are wanted, one for each parameter
set. -/
theorem keys_executeSets
    {text : String} {batch : Nat} {wanted : Bool} {sets : List (List Datum)}
    {done answer : BatchResult} {m after : Memory}
    (h : executeSets text batch wanted sets done m = (.ok answer, after)) :
    answer.keys = done.keys ++
        (if wanted then (List.range' (m.keysIssued + 1) sets.length).map Datum.ofNat else []) ∧
      after.keysIssued = m.keysIssued + if wanted then sets.length else 0 := by
  induction sets generalizing done m with
  | nil =>
      cases h
      cases wanted <;> simp
  | cons params rest ih =>
      have hissued := keysIssued_record ⟨text, params, some batch⟩ m
      simp only [executeSets] at h
      rcases hrecord : m.record ⟨text, params, some batch⟩ with ⟨message | _, recorded⟩
      all_goals
        rw [hrecord] at h hissued
        simp only at h hissued
      · cases h
      · obtain ⟨hkeys, hafter⟩ := ih h
        cases wanted
        · simp only [issueKey, Bool.false_eq_true, if_false, List.append_nil] at hkeys hafter
          simp [hkeys, hafter, hissued]
        · simp only [issueKey, if_true] at hkeys hafter
          rw [hissued] at hkeys hafter
          rw [hkeys, hafter, List.length_cons, List.range'_succ]
          simp
          omega

theorem keys_executeBatch
    {text : String} {sets : List (List Datum)} {fetch : Bool} {m after : Memory}
    {answer : BatchResult} (h : Store.executeBatch text sets fetch m = (.ok answer, after)) :
    answer.keys = (if fetch && isInsertText text then
        (List.range' (m.keysIssued + 1) sets.length).map Datum.ofNat else []) ∧
      after.keysIssued = m.keysIssued + if fetch && isInsertText text then sets.length else 0 := by
  obtain ⟨hkeys, hafter⟩ := keys_executeSets h
  exact ⟨hkeys, hafter⟩

/-- Calls that are all accepted yield the keys of their parcels if keys are fetched. -/
theorem keys_executeGroups
    {fetch : Bool} {groups : List StatementGroup} (hmarked : ∀ group ∈ groups, group.Marked)
    {done totals : Totals} {m after : Memory}
    (h : executeGroups fetch groups done m = (.ok totals, after)) :
    totals.keys = done.keys ++
      (if fetch then keyed m.keysIssued (groups.flatMap StatementGroup.parcels) else []) := by
  induction groups generalizing done m with
  | nil =>
      cases h
      cases fetch <;> simp [keyed]
  | cons group rest ih =>
      have hgroup : group.Marked := hmarked group List.mem_cons_self
      rcases hcall : Store.executeBatch group.text group.paramSets (fetch && group.isInsert) m with
        ⟨e | answer, next⟩
      · simp only [executeGroups, hcall] at h
        cases h
      · simp only [executeGroups, hcall] at h
        have hkeys := ih (fun other hmem => hmarked other (List.mem_cons_of_mem _ hmem)) h
        obtain ⟨hanswer, hissued⟩ := keys_executeBatch hcall
        rw [hgroup, Bool.and_assoc, Bool.and_self, length_paramSets] at hanswer hissued
        have hadd : (done.add (group.totals answer)).keys =
            done.keys ++ StatementGroup.keysOf group.waiting answer.keys :=
          rfl
        rw [hkeys, hadd, hanswer, hissued, List.flatMap_cons, keyed_append,
          StatementGroup.keyed_parcels, StatementGroup.inserts_parcels]
        cases fetch
        · simp [StatementGroup.keysOf]
        · cases isInsertText group.text <;> simp [StatementGroup.keysOf]

end Memory

/-- A watched store answers calls as the store behind it does. -/
theorem executeGroups_watched {σ : Type} [Store σ]
    (fetch : Bool) (groups : List StatementGroup) (done : Totals) (store : Watched σ) :
    (executeGroups fetch groups done store).1 =
        (executeGroups fetch groups done store.behind).1 ∧
      (executeGroups fetch groups done store).2.behind =
        (executeGroups fetch groups done store.behind).2 := by
  induction groups generalizing done store with
  | nil => exact ⟨rfl, rfl⟩
  | cons group rest ih =>
      rcases hcall : Store.executeBatch group.text group.paramSets (fetch && group.isInsert)
        store.behind with ⟨e | answer, after⟩
      · simp [executeGroups, Store.executeBatch, hcall]
      · simp [executeGroups, Store.executeBatch, hcall, ih]

namespace Coordinator

/-! ## The keys of a stage -/

/-- The keys that a stage yields, with the requests that they belong to: those of the inserts that
wait for a flush that succeeds while keys are fetched. -/
def Stage.issued (ctx : Context) : Stage (Watched Memory) → List (RequestId × Datum)
  | .flush reset c b =>
      match (c.flushWith ctx reset b).1 with
      | .ok _ =>
          if c.policy.fetchKeys then
            keyed b.store.behind.keysIssued (c.parcels ctx.registry)
          else []
      | .error _ => []
  | _ => []

def issued (ctx : Context) (history : List (Stage (Watched Memory))) :
    List (RequestId × Datum) :=
  history.flatMap (Stage.issued ctx)

section Issued

variable {ctx : Context} {c : Coordinator} {b : Backing (Watched Memory)}

@[simp] theorem issued_append (first second : List (Stage (Watched Memory))) :
    issued ctx (first ++ second) = issued ctx first ++ issued ctx second :=
  List.flatMap_append

theorem keys_flushWith
    {n : Nat} (h : c.WellFormed ctx.registry n) (reset : Bool) (b : Backing (Watched Memory)) :
    (c.flushWith ctx reset b).2.1.keys =
      c.keys.insertAll ((Stage.flush reset c b).issued ctx) := by
  have hafter := coordinator_flushWith ctx reset c b
  rcases hresult : (c.flushWith ctx reset b).1 with e | totals
  all_goals
    rw [hresult] at hafter
    simp only at hafter
  · rw [hafter]
    simp [Stage.issued, hresult, wiped, Dictionary.insertAll]
  · have hpass := result_flushWith ctx reset h.sendable b
    rw [hresult, (executeGroups_watched _ _ _ _).1] at hpass
    have hkeys := Memory.keys_executeGroups h.marked_calls (Prod.ext hpass.symm rfl)
    rw [h.sendable.parcels_calls] at hkeys
    rw [hafter]
    simpa [Stage.issued, hresult, settled] using congrArg c.keys.insertAll hkeys

/-- Every move but a change of the policy or a handing over files the keys of its stage. -/
theorem Move.keys
    {stage : Stage (Watched Memory)} {m next : Moment (Watched Memory)}
    (hmove : Move ctx stage m next) (h : m.WellFormed ctx.registry) (hne : stage ≠ .adjust) :
    next.coordinator.keys = m.coordinator.keys.insertAll (stage.issued ctx) := by
  cases hmove with
  | flush given reset c b =>
      obtain ⟨n, -, hwell⟩ := h
      exact keys_flushWith hwell reset b
  | adjust => exact absurd rfl hne
  | number | statement | member | entrant | force | execute | clear => rfl

theorem Path.keys
    {stages : List (Stage (Watched Memory))} {m last : Moment (Watched Memory)}
    (hpath : Path ctx stages m last) (h : m.WellFormed ctx.registry) (hnot : .adjust ∉ stages) :
    last.coordinator.keys = m.coordinator.keys.insertAll (issued ctx stages) := by
  induction hpath with
  | nil => rfl
  | cons hmove _ ih =>
      rw [List.mem_cons, not_or] at hnot
      rw [ih (hmove.wellFormed h) hnot.2, hmove.keys h (Ne.symm hnot.1),
        ← Dictionary.insertAll_append]
      rfl

end Issued

/-! ## The keys of a coordinator -/

section Operations

variable {ctx : Context} {c : Coordinator}

theorem keys_perform
    {n : Nat} (hwell : c.WellFormed ctx.registry n) (hle : n ≤ c.requests) {operation : Operation}
    (hne : operation ≠ .takeKeys) (b : Backing (Watched Memory)) :
    (perform ctx operation c b).2.1.keys =
      c.keys.insertAll (issued ctx (stages ctx operation c b)) := by
  have hfiled : operation.adjusts = false →
      (perform ctx operation c b).2.1.keys =
        c.keys.insertAll (issued ctx (stages ctx operation c b)) := by
    intro hnot
    obtain ⟨last, hpath⟩ := path_stages ctx false operation c b
    exact hpath.keys ⟨n, ⟨hle, nofun⟩, hwell⟩ (adjust_not_mem_stages ctx hnot c b)
  cases operation with
  | submit | flush | clear => exact hfiled rfl
  | setBatchSize size =>
      simp only [perform, setBatchSize]
      split <;> rfl
  | setFetchKeys choice => cases choice <;> rfl
  | setFlushOnMixed => rfl
  | takeKeys => exact absurd rfl hne

theorem issued_takeKeys (b : Backing (Watched Memory)) :
    issued ctx (stages ctx .takeKeys c b) = [] :=
  rfl

end Operations

/-! ## What an answer hands over -/

def handed : Except WriteError Reply → List (RequestId × Datum)
  | .ok (.keys keys) => keys.entries
  | _ => []

theorem handed_andThen
    {α γ τ : Type} (step : Step γ τ α) (answer : α → Reply)
    (h : ∀ a, handed (.ok (answer a)) = []) :
    handed (step.andThen (fun a owner b => (.ok (answer a), owner, b))).1 = [] := by
  rcases step with ⟨e | a, owner, b⟩
  · rfl
  · exact h a

theorem handed_perform
    {σ : Type} [Store σ] {ctx : Context} {operation : Operation} (hne : operation ≠ .takeKeys)
    (c : Coordinator) (b : Backing σ) : handed (perform ctx operation c b).1 = [] := by
  cases operation with
  | submit request batch => exact handed_andThen _ _ (fun _ => rfl)
  | flush reset => exact handed_andThen _ _ (fun _ => rfl)
  | clear | setBatchSize | setFetchKeys | setFlushOnMixed => rfl
  | takeKeys => exact absurd rfl hne

/-! ## Keys and numbers -/

theorem parcels_attempts_of_ok
    {ctx : Context} {c : Coordinator} {b : Backing (Watched Memory)} (h : c.Sendable ctx.registry)
    {reset : Bool} {totals : Totals} (hok : (c.flushWith ctx reset b).1 = .ok totals) :
    ((Stage.flush reset c b).attempts ctx.registry).flatMap (fun attempt => attempt.group.parcels) =
      c.parcels ctx.registry := by
  rcases flushWith_cases ctx reset h b with
    ⟨_, hattempted, -, -, -⟩ | ⟨_, _, _, e, -, -, hfail, -⟩
  · rw [← h.parcels_calls, Stage.attempts, hattempted, List.flatMap_map]
    rfl
  · cases hok.symm.trans hfail

theorem Stage.issued_sublist (ctx : Context) {stage : Stage (Watched Memory)}
    (h : stage.Ready ctx.registry) :
    ((stage.issued ctx).map Prod.fst).Sublist
      (((stage.attempts ctx.registry).flatMap
        (fun attempt => attempt.group.parcels)).filterMap Parcel.origin) := by
  cases stage with
  | flush reset c b =>
      rcases hresult : (c.flushWith ctx reset b).1 with e | totals
      · simp only [Stage.issued, hresult]
        exact List.nil_sublist _
      · rw [parcels_attempts_of_ok h hresult]
        simp only [Stage.issued, hresult]
        split
        · rw [keyed_fst]
          exact List.filter_sublist.filterMap _
        · exact List.nil_sublist _
  | number | queue | force | execute | clear | adjust => exact List.nil_sublist _

theorem issued_sublist (ctx : Context) {history : List (Stage (Watched Memory))}
    (h : ∀ stage ∈ history, stage.Ready ctx.registry) :
    ((issued ctx history).map Prod.fst).Sublist
      ((sent ctx.registry history).flatten.filterMap Parcel.origin) := by
  induction history with
  | nil => exact List.Sublist.refl _
  | cons stage rest ih =>
      have hstage := Stage.issued_sublist ctx (h stage List.mem_cons_self)
      have hrest := ih (fun other hmem => h other (List.mem_cons_of_mem _ hmem))
      have hsent : (sent ctx.registry (stage :: rest)).flatten =
          (stage.attempts ctx.registry).flatMap (fun attempt => attempt.group.parcels) ++
            (sent ctx.registry rest).flatten := by
        simp [sent, attempts, List.flatMap_def]
      rw [hsent, List.filterMap_append, issued, List.flatMap_cons, List.map_append]
      exact hstage.append hrest

section Tally

variable {ctx : Context} {earlier : List Seen} {history : List (Stage (Watched Memory))}
  {m : Moment (Watched Memory)}

/-- The requests with keys are among the accepted ones, each at most once. -/
theorem Tally.issued_subperm (h : Tally ctx earlier history m) :
    ((issued ctx history).map Prod.fst).Subperm ((accepted history).map Prod.fst) := by
  have horigins : (acceptedParcels ctx.registry history).filterMap Parcel.origin =
      (accepted history).map Prod.fst := by
    have hmap := origins_acceptedParcels h.known
    rw [← acceptedParcels] at hmap
    simpa using congrArg (List.filterMap id) hmap
  have hbalanced := h.balanced.filterMap Parcel.origin
  rw [horigins, List.filterMap_append, List.filterMap_append] at hbalanced
  refine (List.Subperm.trans ?_ hbalanced.symm.subperm)
  refine (issued_sublist ctx h.ready).subperm.trans (List.Sublist.subperm ?_)
  exact (List.sublist_append_left _ _).trans (List.sublist_append_right _ _)

theorem Tally.issued_nodup (h : Tally ctx earlier history m) :
    ((issued ctx history).map Prod.fst).Nodup := by
  obtain ⟨n, -, harrived⟩ := h.numbered
  obtain ⟨middle, hperm, hsub⟩ := h.issued_subperm
  exact hperm.nodup_iff.1 (hsub.nodup harrived.nodup)

theorem Tally.issued_eq_nil (h : Tally ctx earlier history m) (hnone : accepted history = []) :
    issued ctx history = [] := by
  have hsub := h.issued_subperm
  rw [hnone, List.map_nil] at hsub
  exact List.map_eq_nil_iff.1 (List.subperm_nil.1 hsub)

end Tally

end Coordinator

end Cascade
