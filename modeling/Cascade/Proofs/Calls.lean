import Cascade.Proofs.Plans
import Cascade.Coordinator.Flush

/-!
# The calls of a flush

A watched store keeps the calls that it is asked for, in front of a store that
answers them.  Over such a store it can be said which calls a flush makes: those
of one list of groups, statements before records, from the first to the first
that is refused.
-/

namespace Cascade

open Json

variable {σ : Type}

/-! ## Watched stores -/

/-- A call as it was seen, with the refusal if the store refused it. -/
structure Seen where
  call : Call
  refusal : Option StoreError
  deriving DecidableEq, Repr

def Seen.ofAnswer {α : Type} (call : Call) (answer : Except StoreError α) : Seen :=
  match answer with
  | .ok _ => ⟨call, none⟩
  | .error e => ⟨call, some e⟩

/-- A store in front of another that keeps all calls, oldest first. -/
structure Watched (σ : Type) where
  seen : List Seen := []
  behind : σ

instance [Store σ] : Store (Watched σ) where
  execute statement fetch store :=
    let (answer, behind) := Store.execute statement fetch store.behind
    (answer, ⟨store.seen ++ [.ofAnswer (.single statement fetch) answer], behind⟩)
  executeBatch text sets fetch store :=
    let (answer, behind) := Store.executeBatch text sets fetch store.behind
    (answer, ⟨store.seen ++ [.ofAnswer (.batch text sets fetch) answer], behind⟩)

def Call.statements : Call → List Statement
  | .single statement _ => [statement]
  | .batch text sets _ => sets.map (fun params => ⟨text, params⟩)

def Call.isBatch : Call → Bool
  | .single _ _ => false
  | .batch _ _ _ => true

/-- The store is in a state from which it never refuses a batch call. -/
def Store.Obliging [Store σ] (store : σ) : Prop :=
  ∃ willing : σ → Prop, willing store ∧ ∀ state, willing state → ∀ text sets fetch,
    ∃ answer after, Store.executeBatch text sets fetch state = (.ok answer, after) ∧ willing after

theorem Store.Obliging.watched [Store σ] {store : Watched σ} (h : Store.Obliging store.behind) :
    Store.Obliging store := by
  obtain ⟨willing, hstore, hnext⟩ := h
  refine ⟨fun state => willing state.behind, hstore, ?_⟩
  intro state hstate text sets fetch
  obtain ⟨answer, after, hcall, hafter⟩ := hnext _ hstate text sets fetch
  exact ⟨answer, ⟨state.seen ++ [.ofAnswer (.batch text sets fetch) (.ok answer)], after⟩,
    by simp [Store.executeBatch, hcall], hafter⟩

/-! ## Making the calls of groups -/

def StatementGroup.call (fetch : Bool) (group : StatementGroup) : Call :=
  .batch group.text group.paramSets (fetch && group.isInsert)

/-- A group whose call was made, with the refusal if the store refused it. -/
structure Attempt where
  group : StatementGroup
  refusal : Option StoreError

def Attempt.seen (fetch : Bool) (attempt : Attempt) : Seen :=
  ⟨attempt.group.call fetch, attempt.refusal⟩

def StatementGroup.accepted (group : StatementGroup) : Attempt :=
  ⟨group, none⟩

/-- The attempts that a store leads to: one group after the other, until one is refused. -/
def attempted [Store σ] (fetch : Bool) : List StatementGroup → σ → List Attempt
  | [], _ => []
  | group :: rest, store =>
      match Store.executeBatch group.text group.paramSets (fetch && group.isInsert) store with
      | (.ok _, after) => group.accepted :: attempted fetch rest after
      | (.error e, _) => [⟨group, some e⟩]

theorem StatementGroup.statements_call (fetch : Bool) (group : StatementGroup) :
    (group.call fetch).statements = group.parcels.map Parcel.statement :=
  group.paramSets_eq

theorem statements_calls (fetch : Bool) (groups : List StatementGroup) :
    (groups.map (StatementGroup.call fetch)).flatMap Call.statements =
      (groups.flatMap StatementGroup.parcels).map Parcel.statement := by
  simp only [List.flatMap_map, StatementGroup.statements_call, List.map_flatMap]

theorem attempted_of_obliging [Store σ] (fetch : Bool) (groups : List StatementGroup) {store : σ}
    (h : Store.Obliging store) :
    attempted fetch groups store = groups.map StatementGroup.accepted := by
  induction groups generalizing store with
  | nil => rfl
  | cons group rest ih =>
      obtain ⟨willing, hstore, hnext⟩ := h
      obtain ⟨answer, after, hcall, hafter⟩ :=
        hnext _ hstore group.text group.paramSets (fetch && group.isInsert)
      simp [attempted, hcall, ih ⟨willing, hafter, hnext⟩]

theorem executeGroups_of_obliging [Store σ] (fetch : Bool) (groups : List StatementGroup)
    (done : Totals) {store : σ} (h : Store.Obliging store) :
    ∃ totals, (executeGroups fetch groups done store).1 = .ok totals := by
  induction groups generalizing done store with
  | nil => exact ⟨done, rfl⟩
  | cons group rest ih =>
      obtain ⟨willing, hstore, hnext⟩ := h
      obtain ⟨answer, after, hcall, hafter⟩ :=
        hnext _ hstore group.text group.paramSets (fetch && group.isInsert)
      simpa [executeGroups, hcall] using ih (done.add (group.totals answer)) ⟨willing, hafter, hnext⟩

theorem executeGroups_seen [Store σ] (fetch : Bool)
    (groups : List StatementGroup) (done : Totals) (store : Watched σ) :
    (executeGroups fetch groups done store).2.seen =
      store.seen ++ (attempted fetch groups store).map (Attempt.seen fetch) := by
  induction groups generalizing done store with
  | nil => simp [executeGroups, attempted]
  | cons group rest ih =>
      rcases hcall : Store.executeBatch group.text group.paramSets (fetch && group.isInsert)
        store.behind with ⟨_ | answer, after⟩
      · simp [executeGroups, attempted, Store.executeBatch, hcall, Seen.ofAnswer, Attempt.seen,
          StatementGroup.call]
      · simp [executeGroups, attempted, Store.executeBatch, hcall, Seen.ofAnswer, ih,
          Attempt.seen, StatementGroup.call, StatementGroup.accepted]

/-- Either every call is accepted and all statements count, or one is refused and the error counts
the statements before it. -/
theorem executeGroups_cases [Store σ] (fetch : Bool)
    (groups : List StatementGroup) (done : Totals) (store : σ) :
    (∃ totals, (executeGroups fetch groups done store).1 = .ok totals ∧
        attempted fetch groups store = groups.map StatementGroup.accepted ∧
        totals.statements = done.statements + sumOf (groups.map StatementGroup.size)) ∨
      ∃ sent refused rest e, groups = sent ++ refused :: rest ∧
        attempted fetch groups store =
          sent.map StatementGroup.accepted ++ [⟨refused, some e⟩] ∧
        (executeGroups fetch groups done store).1 = .error (.ofStore refused.text
          (done.statements + sumOf (sent.map StatementGroup.size)) e) := by
  induction groups generalizing done store with
  | nil => exact Or.inl ⟨done, rfl, rfl, rfl⟩
  | cons group rest ih =>
      rcases hcall : Store.executeBatch group.text group.paramSets (fetch && group.isInsert)
        store with ⟨e | answer, after⟩
      · refine Or.inr ⟨[], group, rest, e, rfl, ?_, ?_⟩
        · simp [attempted, hcall]
        · simp [executeGroups, hcall, sumOf]
      · have hdone : (done.add (group.totals answer)).statements = done.statements + group.size :=
          rfl
        rcases ih (done.add (group.totals answer)) after with
          ⟨totals, hresult, hattempted, hcount⟩ |
          ⟨sent, refused, others, e, hgroups, hattempted, hresult⟩
        · refine Or.inl ⟨totals, ?_, ?_, ?_⟩
          · simpa [executeGroups, hcall] using hresult
          · simp [attempted, hcall, hattempted]
          · rw [hcount, hdone, List.map_cons, sumOf]
            omega
        · refine Or.inr ⟨group :: sent, refused, others, e, by simp [hgroups], ?_, ?_⟩
          · simp [attempted, hcall, hattempted]
          · simp only [executeGroups, hcall, hresult, hdone, List.map_cons, sumOf]
            congr 2
            omega

theorem executeGroups_append [Store σ] (fetch : Bool)
    (first second : List StatementGroup) (done : Totals) (store : σ) :
    executeGroups fetch (first ++ second) done store =
      match executeGroups fetch first done store with
      | (.ok totals, after) => executeGroups fetch second totals after
      | (.error e, after) => (.error e, after) := by
  induction first generalizing done store with
  | nil => rfl
  | cons group rest ih =>
      rcases hcall : Store.executeBatch group.text group.paramSets (fetch && group.isInsert)
        store with ⟨e | answer, after⟩
      · simp [executeGroups, hcall]
      · simp [executeGroups, hcall, ih]

end Cascade
