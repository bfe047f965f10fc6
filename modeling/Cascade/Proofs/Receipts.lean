import Mathlib.Data.List.Nodup
import Cascade.Proofs.Keys

/-!
# Receipts

For every statement that it records, a recording store may generate a key.  The
receipts of a flush put the two together, statement by statement, in the order
in which the store takes them.  A flush that succeeds has one receipt for each
request that waited, and files the key of the receipt under this request.
-/

namespace Cascade

open Json

theorem Json.Datum.ofNat_inj {m n : Nat} : Datum.ofNat m = Datum.ofNat n ↔ m = n := by
  constructor
  · intro h
    have hvalue : (m : Int) = n := by
      simpa [Datum.ofNat, Value.ofNat] using congrArg Datum.value h
    omega
  · exact congrArg Datum.ofNat

/-- A statement that a store has recorded, with the key that it generated for it. -/
structure Receipt where
  statement : Statement
  key : Option Datum

/-- The key of a parcel with the request that it belongs to, if there are both. -/
def Receipt.claim (pair : Parcel × Receipt) : Option (RequestId × Datum) :=
  pair.1.origin.bind (fun id => pair.2.key.map (Prod.mk id))

theorem Receipt.claim_eq_some_iff {pair : Parcel × Receipt} {id : RequestId} {key : Datum} :
    Receipt.claim pair = some (id, key) ↔ pair.1.origin = some id ∧ pair.2.key = some key := by
  obtain ⟨⟨origin, statement⟩, ⟨recorded, held⟩⟩ := pair
  cases origin <;> cases held <;> simp [claim]

/-- The keys that belong to requests are among those of the receipts, in the same order. -/
theorem Receipt.claims_sublist (parcels : List Parcel) (receipts : List Receipt) :
    (((parcels.zip receipts).filterMap claim).map Prod.snd).Sublist
      (receipts.filterMap Receipt.key) := by
  induction parcels generalizing receipts with
  | nil => exact List.nil_sublist _
  | cons parcel rest ih =>
      rcases receipts with _ | ⟨⟨statement, key⟩, others⟩
      · exact List.nil_sublist _
      · obtain ⟨origin, statement⟩ := parcel
        cases key with
        | none => cases origin <;> exact ih others
        | some key =>
            cases origin with
            | none => exact (ih others).cons key
            | some id => exact (ih others).cons_cons key

namespace Memory

/-- The receipts for the parameter sets of a batch call, until one of them is refused. -/
def receiptsOfSets (text : String) (batch : Nat) (wanted : Bool) :
    List (List Datum) → Memory → List Receipt
  | [], _ => []
  | params :: rest, m =>
      match m.record ⟨text, params, some batch⟩ with
      | (.error _, _) => []
      | (.ok (), after) =>
          let (keys, last) := after.issueKey wanted
          ⟨⟨text, params⟩, keys.head?⟩ :: receiptsOfSets text batch wanted rest last

/-- The receipts for a batch call. -/
def receiptsOfCall (text : String) (sets : List (List Datum)) (fetch : Bool) (m : Memory) :
    List Receipt :=
  receiptsOfSets text m.batchSizes.length (fetch && isInsertText text) sets
    { m with batchSizes := m.batchSizes ++ [sets.length] }

/-- The receipts for the calls of some groups, until one of them is refused. -/
def receipts (fetch : Bool) : List StatementGroup → Memory → List Receipt
  | [], _ => []
  | group :: rest, m =>
      receiptsOfCall group.text group.paramSets (fetch && group.isInsert) m ++
        match Store.executeBatch group.text group.paramSets (fetch && group.isInsert) m with
        | (.ok _, after) => receipts fetch rest after
        | (.error _, _) => []

def keys (m : Memory) : List Datum :=
  (List.range' 1 m.keysIssued).map Datum.ofNat

theorem nodup_keys (m : Memory) : m.keys.Nodup :=
  List.Nodup.map (fun _ _ => Datum.ofNat_inj.1) List.nodup_range'

/-- However a store was used meanwhile, it has not forgotten how many keys it has generated. -/
def KeepsCount (m after : Memory) : Prop :=
  m.keysIssued ≤ after.keysIssued

theorem KeepsCount.keys_sublist {m after : Memory} (h : m.KeepsCount after) :
    m.keys.Sublist after.keys :=
  (List.range'_sublist_right.2 h).map _

/-- From one state of a store to another it has recorded the statements of some receipts and
generated their keys. -/
structure Adds (receipts : List Receipt) (m after : Memory) : Prop where
  log : after.log = m.log ++ receipts.map Receipt.statement
  keys : after.keys = m.keys ++ receipts.filterMap Receipt.key

section Adds

variable {first second : List Receipt} {m next after : Memory}

theorem Adds.of_eq (hlog : after.log = m.log) (hkeys : after.keysIssued = m.keysIssued) :
    Adds [] m after where
  log := hlog.trans (List.append_nil _).symm
  keys := by
    rw [Memory.keys, hkeys]
    exact (List.append_nil _).symm

theorem Adds.append (h : Adds first m next) (h' : Adds second next after) :
    Adds (first ++ second) m after where
  log := by
    rw [h'.log, h.log, List.map_append, List.append_assoc]
  keys := by
    rw [h'.keys, h.keys, List.filterMap_append, List.append_assoc]

theorem Adds.keys_sublist (h : Adds first m after) : m.keys.Sublist after.keys := by
  rw [h.keys]
  exact List.sublist_append_left _ _

/-- A statement that is refused leaves no receipt. -/
theorem adds_of_refused
    {entry : Executed} {message : String} (h : m.record entry = (.error message, after)) :
    Adds [] m after := by
  unfold record at h
  dsimp only at h
  split at h
  · cases h
    exact .of_eq rfl rfl
  · cases h

theorem adds_of_recorded
    {entry : Executed} (h : m.record entry = (.ok (), next)) (wanted : Bool) :
    Adds [⟨⟨entry.text, entry.params⟩, (next.issueKey wanted).1.head?⟩] m
      (next.issueKey wanted).2 := by
  unfold record at h
  dsimp only at h
  split at h
  · cases h
  · cases h
    cases wanted
    · exact ⟨by simp [issueKey, log], (List.append_nil _).symm⟩
    · refine ⟨by simp [issueKey, log], ?_⟩
      simp [issueKey, Memory.keys, List.range'_concat, Nat.add_comm]

theorem adds_executeSets
    (text : String) (batch : Nat) (wanted : Bool) (sets : List (List Datum)) (done : BatchResult)
    (m : Memory) :
    Adds (receiptsOfSets text batch wanted sets m) m
      (executeSets text batch wanted sets done m).2 := by
  induction sets generalizing done m with
  | nil => exact .of_eq rfl rfl
  | cons params rest ih =>
      simp only [executeSets, receiptsOfSets]
      rcases hrecord : m.record ⟨text, params, some batch⟩ with ⟨message | _, recorded⟩
      · exact adds_of_refused hrecord
      · exact (adds_of_recorded hrecord wanted).append (ih _ _)

theorem adds_executeBatch
    (text : String) (sets : List (List Datum)) (fetch : Bool) (m : Memory) :
    Adds (receiptsOfCall text sets fetch m) m (Store.executeBatch text sets fetch m).2 := by
  have hcounted : Adds [] m { m with batchSizes := m.batchSizes ++ [sets.length] } :=
    .of_eq rfl rfl
  exact hcounted.append (adds_executeSets _ _ _ _ _ _)

/-- Whether or not the calls are accepted, the receipts tell what the store has recorded and which
keys it has generated. -/
theorem adds_executeGroups
    (fetch : Bool) (groups : List StatementGroup) (done : Totals) (m : Memory) :
    Adds (receipts fetch groups m) m (executeGroups fetch groups done m).2 := by
  induction groups generalizing done m with
  | nil => exact .of_eq rfl rfl
  | cons group rest ih =>
      have hgroup := adds_executeBatch group.text group.paramSets (fetch && group.isInsert) m
      simp only [executeGroups, receipts]
      rcases hcall : Store.executeBatch group.text group.paramSets (fetch && group.isInsert) m with
        ⟨e | answer, next⟩
      all_goals rw [hcall] at hgroup
      · rw [List.append_nil]
        exact hgroup
      · exact hgroup.append (ih _ _)

theorem adds_execute (statement : Statement) (fetch : Bool) (m : Memory) :
    ∃ receipts, Adds receipts m (Store.execute statement fetch m).2 := by
  simp only [Store.execute, execute]
  rcases hrecord : m.record ⟨statement.text, statement.params, none⟩ with ⟨message | _, recorded⟩
  · exact ⟨_, adds_of_refused hrecord⟩
  · exact ⟨_, adds_of_recorded hrecord _⟩

end Adds

/-- A call that is accepted has a receipt for each parameter set, with a key if one is wanted; the
answer lists these keys. -/
theorem receiptsOfSets_of_ok
    {text : String} {batch : Nat} {wanted : Bool} {sets : List (List Datum)}
    {done answer : BatchResult} {m after : Memory}
    (h : executeSets text batch wanted sets done m = (.ok answer, after)) :
    (receiptsOfSets text batch wanted sets m).map Receipt.statement =
        sets.map (fun params => ⟨text, params⟩) ∧
      (∀ receipt ∈ receiptsOfSets text batch wanted sets m, receipt.key.isSome = wanted) ∧
      answer.keys =
        done.keys ++ (receiptsOfSets text batch wanted sets m).filterMap Receipt.key := by
  induction sets generalizing done m with
  | nil =>
      cases h
      exact ⟨rfl, List.forall_mem_nil _, (List.append_nil _).symm⟩
  | cons params rest ih =>
      simp only [executeSets] at h
      rcases hrecord : m.record ⟨text, params, some batch⟩ with ⟨message | _, recorded⟩
      all_goals
        rw [hrecord] at h
        simp only at h
      · cases h
      · obtain ⟨hstatements, hkeyed, hkeys⟩ := ih h
        simp only [receiptsOfSets, hrecord]
        refine ⟨by simp [hstatements], List.forall_mem_cons.2 ⟨?_, hkeyed⟩, ?_⟩
        · cases wanted <;> rfl
        · cases wanted <;> simpa [issueKey] using hkeys

end Memory

/-! ## Receipts and parcels -/

/-- The receipts of some parcels, in their order: each has the statement of its parcel, and a key
exactly if keys are fetched and the statement is an insert. -/
structure Receipted (fetch : Bool) (parcels : List Parcel) (receipts : List Receipt) : Prop where
  statements : receipts.map Receipt.statement = parcels.map Parcel.statement
  keyed : receipts.map (fun receipt => receipt.key.isSome) =
    parcels.map (fun parcel => fetch && parcel.statement.isInsert)

namespace Receipted

variable {fetch : Bool} {parcels others : List Parcel} {receipts later : List Receipt}

theorem nil (fetch : Bool) : Receipted fetch [] [] :=
  ⟨rfl, rfl⟩

theorem length (h : Receipted fetch parcels receipts) : parcels.length = receipts.length := by
  simpa using (congrArg List.length h.statements).symm

theorem append (h : Receipted fetch parcels receipts) (h' : Receipted fetch others later) :
    Receipted fetch (parcels ++ others) (receipts ++ later) where
  statements := by
    rw [List.map_append, List.map_append, h.statements, h'.statements]
  keyed := by
    rw [List.map_append, List.map_append, h.keyed, h'.keyed]

theorem at_place
    (h : Receipted fetch parcels receipts) {place : Nat} {parcel : Parcel} {receipt : Receipt}
    (hparcel : parcels[place]? = some parcel) (hreceipt : receipts[place]? = some receipt) :
    receipt.statement = parcel.statement ∧
      receipt.key.isSome = (fetch && parcel.statement.isInsert) := by
  have hstatement := congrArg (fun listed => listed[place]?) h.statements
  have hkeyed := congrArg (fun listed => listed[place]?) h.keyed
  simp only [List.getElem?_map, hparcel, hreceipt, Option.map_some, Option.some.injEq]
    at hstatement hkeyed
  exact ⟨hstatement, hkeyed⟩

/-- While keys are fetched, every insert has a receipt with a key. -/
theorem exists_key
    (h : Receipted true parcels receipts) {place : Nat} {parcel : Parcel}
    (hparcel : parcels[place]? = some parcel) (hinsert : parcel.statement.isInsert = true) :
    ∃ key, receipts[place]? = some ⟨parcel.statement, some key⟩ := by
  obtain ⟨hlt, -⟩ := List.getElem?_eq_some_iff.1 hparcel
  rw [h.length] at hlt
  rcases hreceipt : receipts[place] with ⟨statement, key⟩
  have hfound : receipts[place]? = some ⟨statement, key⟩ := by
    rw [List.getElem?_eq_getElem hlt, hreceipt]
  obtain ⟨rfl, hkeyed⟩ := h.at_place hparcel hfound
  rw [hinsert] at hkeyed
  obtain ⟨key, rfl⟩ := Option.isSome_iff_exists.1 hkeyed
  exact ⟨key, hfound⟩

end Receipted

namespace StatementGroup

/-- The keys of an answer go to the requests that wait, one by one. -/
theorem keysOf_receipts
    {wanted : Bool} {text : String} {waiting : List Waiting} {receipts : List Receipt}
    (hlength : waiting.length = receipts.length)
    (hkeyed : ∀ receipt ∈ receipts, receipt.key.isSome = wanted) :
    keysOf waiting (receipts.filterMap Receipt.key) =
      ((waiting.map (fun entry => (⟨entry.origin, ⟨text, entry.params⟩⟩ : Parcel))).zip
        receipts).filterMap Receipt.claim := by
  cases wanted with
  | false =>
      have hnone : ∀ receipt ∈ receipts, receipt.key = none := by
        intro receipt hmem
        simpa using hkeyed receipt hmem
      have hkeys : receipts.filterMap Receipt.key = [] := List.filterMap_eq_nil_iff.2 hnone
      rw [hkeys, keysOf, List.zip_nil_right, List.filterMap_nil, eq_comm,
        List.filterMap_eq_nil_iff]
      intro pair hmem
      simp [Receipt.claim, hnone _ (List.of_mem_zip hmem).2]
  | true =>
      induction waiting generalizing receipts with
      | nil => rfl
      | cons entry rest ih =>
          obtain ⟨receipt, others, rfl⟩ := List.exists_cons_of_length_eq_add_one hlength.symm
          obtain ⟨hfirst, hothers⟩ := List.forall_mem_cons.1 hkeyed
          obtain ⟨key, hkey⟩ := Option.isSome_iff_exists.1 hfirst
          have hrest := ih (by simpa using hlength) hothers
          rw [keysOf] at hrest
          cases horigin : entry.origin <;>
            simp [keysOf, Receipt.claim, hkey, horigin, hrest]

theorem receipted
    {group : StatementGroup} (hgroup : group.Marked) {fetch : Bool} {m after : Memory}
    {answer : BatchResult}
    (h : Store.executeBatch group.text group.paramSets (fetch && group.isInsert) m =
      (.ok answer, after)) :
    Receipted fetch group.parcels
        (Memory.receiptsOfCall group.text group.paramSets (fetch && group.isInsert) m) ∧
      keysOf group.waiting answer.keys = (group.parcels.zip (Memory.receiptsOfCall group.text
        group.paramSets (fetch && group.isInsert) m)).filterMap Receipt.claim := by
  obtain ⟨hstatements, hkeyed, hkeys⟩ := Memory.receiptsOfSets_of_ok h
  rw [group.paramSets_eq] at hstatements
  have hwanted : ((fetch && group.isInsert) && isInsertText group.text) =
      (fetch && isInsertText group.text) := by
    rw [hgroup, Bool.and_assoc, Bool.and_self]
  rw [hwanted] at hkeyed hkeys hstatements
  rw [Memory.receiptsOfCall, hwanted]
  have hlength := congrArg List.length hstatements
  rw [List.length_map, List.length_map] at hlength
  refine ⟨⟨hstatements, ?_⟩, ?_⟩
  · have hparcels : ∀ parcel ∈ group.parcels, (fetch && parcel.statement.isInsert) =
        (fetch && isInsertText group.text) := by
      intro parcel hmem
      rw [isInsert_of_mem_parcels hmem]
    rw [List.map_congr_left hkeyed, List.map_congr_left hparcels, List.map_const',
      List.map_const', hlength]
  · rw [hkeys, List.nil_append]
    refine keysOf_receipts ?_ hkeyed
    rw [hlength, length_parcels]
    rfl

end StatementGroup

/-- Calls that are all accepted have a receipt for each parcel, and the keys of the receipts belong
to the requests of the parcels. -/
theorem Memory.receipted_of_ok
    {fetch : Bool} {groups : List StatementGroup} (hmarked : ∀ group ∈ groups, group.Marked)
    {done totals : Totals} {m after : Memory}
    (h : executeGroups fetch groups done m = (.ok totals, after)) :
    Receipted fetch (groups.flatMap StatementGroup.parcels) (receipts fetch groups m) ∧
      totals.keys = done.keys ++ ((groups.flatMap StatementGroup.parcels).zip
        (receipts fetch groups m)).filterMap Receipt.claim := by
  induction groups generalizing done m with
  | nil =>
      cases h
      exact ⟨.nil fetch, (List.append_nil _).symm⟩
  | cons group rest ih =>
      rw [List.forall_mem_cons] at hmarked
      rcases hcall : Store.executeBatch group.text group.paramSets (fetch && group.isInsert) m with
        ⟨e | answer, next⟩
      · simp only [executeGroups, hcall] at h
        cases h
      · simp only [executeGroups, hcall] at h
        obtain ⟨hrest, hkeys⟩ := ih hmarked.2 h
        obtain ⟨hgroup, hanswer⟩ := StatementGroup.receipted hmarked.1 hcall
        have hadd : (done.add (group.totals answer)).keys =
            done.keys ++ StatementGroup.keysOf group.waiting answer.keys :=
          rfl
        simp only [receipts, hcall, List.flatMap_cons]
        refine ⟨hgroup.append hrest, ?_⟩
        rw [hkeys, hadd, hanswer, List.zip_append hgroup.length, List.filterMap_append,
          List.append_assoc]

theorem behind_executeNow {σ : Type} [Store σ]
    {registry : Registry} {request : Request} {bound : Statement}
    (hbound : request.bind registry = .ok bound) {fetch : Bool} {b : Backing (Watched σ)} :
    (b.executeNow registry fetch request).2.store.behind =
      (Store.execute bound (fetch && bound.isInsert) b.store.behind).2 := by
  unfold Backing.executeNow Request.execute
  rcases hcall : Store.execute bound (fetch && bound.isInsert) b.store.behind with
    ⟨e | answer, after⟩
  all_goals simp [hbound, Store.execute, hcall, Backing.note, Backing.count]

/-! ## The receipts of a flush -/

namespace Coordinator

/-- The receipts of a flush over a store. -/
def receipts (registry : Registry) (c : Coordinator) (m : Memory) : List Receipt :=
  Memory.receipts c.policy.fetchKeys (c.calls registry) m

section Flush

variable {ctx : Context} {n : Nat} {c : Coordinator} {b : Backing (Watched Memory)}

/-- The receipts of a flush tell what the store has recorded in it and which keys it has
generated. -/
theorem adds_flushWith (h : c.Sendable ctx.registry) (reset : Bool) :
    Memory.Adds (c.receipts ctx.registry b.store.behind) b.store.behind
      (c.flushWith ctx reset b).2.2.store.behind := by
  rw [store_flushWith ctx reset h, (executeGroups_watched _ _ _ _).2]
  exact Memory.adds_executeGroups _ _ _ _

theorem adds_executeNow
    (registry : Registry) (fetch : Bool) (request : Request) (b : Backing (Watched Memory)) :
    ∃ receipts, Memory.Adds receipts b.store.behind
      (b.executeNow registry fetch request).2.store.behind := by
  rcases hbound : request.bind registry with e | bound
  · refine ⟨[], ?_⟩
    rw [Backing.executeNow, Request.execute, hbound]
    exact .of_eq rfl rfl
  · rw [behind_executeNow hbound]
    exact Memory.adds_execute bound _ b.store.behind

/-- A flush that succeeds has a receipt for each request that waited, and yields the keys of the
receipts of inserts while keys are fetched. -/
theorem receipted_flush
    (h : c.WellFormed ctx.registry n) {reset : Bool} {totals : Totals}
    (hok : (c.flushWith ctx reset b).1 = .ok totals) :
    Receipted c.policy.fetchKeys (c.parcels ctx.registry)
        (c.receipts ctx.registry b.store.behind) ∧
      (Stage.flush reset c b).issued ctx = ((c.parcels ctx.registry).zip
        (c.receipts ctx.registry b.store.behind)).filterMap Receipt.claim := by
  have hpass := result_flushWith ctx reset h.sendable b
  rw [hok, (executeGroups_watched _ _ _ _).1] at hpass
  have hgroups : executeGroups c.policy.fetchKeys (c.calls ctx.registry) {} b.store.behind =
      (.ok totals, _) :=
    Prod.ext hpass.symm rfl
  obtain ⟨hreceipted, hkeys⟩ := Memory.receipted_of_ok h.marked_calls hgroups
  have hissued := Memory.keys_executeGroups h.marked_calls hgroups
  rw [h.sendable.parcels_calls] at hreceipted hkeys hissued
  refine ⟨hreceipted, ?_⟩
  simp only [Stage.issued, hok]
  exact List.append_cancel_left (hissued.symm.trans hkeys)

/-- A flush yields a key for a request exactly if it succeeds while keys are fetched and the key is
on the receipt for the statement of this request, which is then an insert. -/
theorem mem_issued_flush_iff
    (h : c.WellFormed ctx.registry n) {reset : Bool} {id : RequestId} {key : Datum} :
    (id, key) ∈ (Stage.flush reset c b).issued ctx ↔
      (∃ totals, (c.flushWith ctx reset b).1 = .ok totals) ∧ c.policy.fetchKeys = true ∧
        ∃ (place : Nat) (parcel : Parcel), (c.parcels ctx.registry)[place]? = some parcel ∧
          parcel.origin = some id ∧ parcel.statement.isInsert = true ∧
          (c.receipts ctx.registry b.store.behind)[place]? =
            some ⟨parcel.statement, some key⟩ := by
  constructor
  · intro hmem
    rcases hresult : (c.flushWith ctx reset b).1 with e | totals
    · simp [Stage.issued, hresult] at hmem
    · obtain ⟨hreceipted, hissued⟩ := receipted_flush h hresult
      rw [hissued] at hmem
      obtain ⟨⟨parcel, receipt⟩, hpair, hclaim⟩ := List.mem_filterMap.1 hmem
      obtain ⟨horigin, hkey⟩ := Receipt.claim_eq_some_iff.1 hclaim
      obtain ⟨place, hplace⟩ := List.mem_iff_getElem?.1 hpair
      obtain ⟨hparcel, hreceipt⟩ := List.getElem?_zip_eq_some.1 hplace
      obtain ⟨hstatement, hkeyed⟩ := hreceipted.at_place hparcel hreceipt
      rw [hkey, Option.isSome_some, eq_comm, Bool.and_eq_true] at hkeyed
      refine ⟨⟨totals, rfl⟩, hkeyed.1, place, parcel, hparcel, horigin, hkeyed.2, ?_⟩
      rw [hreceipt, ← hstatement, ← hkey]
  · rintro ⟨⟨totals, hok⟩, -, place, parcel, hparcel, horigin, -, hreceipt⟩
    rw [(receipted_flush h hok).2, List.mem_filterMap]
    refine ⟨(parcel, ⟨parcel.statement, some key⟩), ?_, ?_⟩
    · exact List.mem_iff_getElem?.2 ⟨place, List.getElem?_zip_eq_some.2 ⟨hparcel, hreceipt⟩⟩
    · exact Receipt.claim_eq_some_iff.2 ⟨horigin, rfl⟩

end Flush

end Coordinator

end Cascade
