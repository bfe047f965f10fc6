import Cascade.Proofs.Ordering
import Cascade.Proofs.Recording

/-!
# The order of a flush

Over a store that refuses nothing, a flush of a reachable coordinator makes the
calls of the statements that wait, grouped by text, and then those of one group
of records after the other, in ascending order of depth and age.
-/

namespace Cascade.Coordinator

variable {σ : Type}

/-- What a flush does over a store that refuses nothing.

The statements that wait were appended as `requests`; they go out as `rawCalls`.  The groups
go out as `ordered`, each of them as its `groupCalls`. -/
structure FlushOrder [Store σ] (ctx : Context) (reset : Bool) (c : Coordinator)
    (b : Backing (Watched σ)) (requests : List (RequestId × Statement)) (rawCalls : List Call)
    (ordered : List RecordGroup) (groupCalls : RecordGroup → List Call) : Prop where
  /-- The statements that wait are those of the requests, appended in this order. -/
  appended : c.statements = .gathered requests
  numbered : (requests.map Prod.fst).Pairwise (· < ·)
  /-- The first calls execute the statements: texts in the order in which they first came, and
  each text's parameter sets in the order in which they came. -/
  raw : rawCalls.flatMap Call.statements =
    (StatementBatch.arranged requests).map Parcel.statement
  groups : ordered.Perm c.window.values
  /-- They are in ascending order of depth and, at one depth, of age. -/
  ascending : ordered.Pairwise (fun x y =>
    x.depth < y.depth ∨ x.depth = y.depth ∧ x.sequence < y.sequence)
  /-- It does not matter how the groups of the window are enumerated. -/
  enumerated : ∀ groups, groups.Perm c.window.values →
    sortBy RecordGroup.precedes groups = ordered
  /-- The calls of a group execute the statements that its writes bind to, in the order of the
  writes. -/
  grouped : ∀ group ∈ ordered, ∃ statements, group.bind ctx.registry = .ok statements ∧
    (groupCalls group).flatMap Call.statements = statements.map Statement.normal
  /-- The writes of a group came in ascending order of their numbers. -/
  arrived : ∀ group ∈ ordered, (group.pending.map Prod.fst).Pairwise (· < ·)
  batches : ∀ call ∈ rawCalls ++ ordered.flatMap groupCalls, call.isBatch
  /-- The flush makes exactly these calls, and all of them are accepted. -/
  calls : (c.flushWith ctx reset b).2.2.store.seen =
    b.store.seen ++ (rawCalls ++ ordered.flatMap groupCalls).map (fun call => ⟨call, none⟩)
  succeeds : ∃ totals, (c.flushWith ctx reset b).1 = .ok totals
  drained : (c.flushWith ctx reset b).2.1.isEmpty = true

/-- Over a store that refuses nothing a flush makes exactly the planned calls. -/
theorem flush_in_order [Store σ]
    {ctx : Context} {c : Coordinator} (hc : Reachable ctx c) (reset : Bool)
    (b : Backing (Watched σ)) (hstore : Store.Obliging b.store.behind) :
    ∃ requests rawCalls ordered groupCalls,
      FlushOrder ctx reset c b requests rawCalls ordered groupCalls := by
  obtain ⟨n, -, hwell⟩ := hc.wellFormed
  obtain ⟨requests, hrequests, harrived⟩ := hwell.statements
  have hsendable := hwell.sendable
  have hattempted : attempted c.policy.fetchKeys (c.calls ctx.registry) b.store =
      (c.calls ctx.registry).map StatementGroup.accepted :=
    attempted_of_obliging _ _ hstore.watched
  obtain ⟨totals, hresult, hafter⟩ : ∃ totals, (c.flushWith ctx reset b).1 = .ok totals ∧
      (c.flushWith ctx reset b).2.1 = c.settled reset totals := by
    rcases flushWith_cases ctx reset hsendable b with
      ⟨totals, -, hresult, hafter, -⟩ | ⟨sent, refused, rest, e, -, hfailed, -, -⟩
    · exact ⟨totals, hresult, hafter⟩
    · -- The refused call would be among calls that are all accepted.
      have hmem : (⟨refused, some e⟩ : Attempt) ∈
          (c.calls ctx.registry).map StatementGroup.accepted := by
        rw [← hattempted, hfailed]
        simp
      obtain ⟨group, -, hgroup⟩ := List.mem_map.1 hmem
      cases hgroup
  have hgroup : ∀ group ∈ c.window.ordered, group ∈ c.window.values :=
    fun group hmem => mem_ordered_iff.1 hmem
  refine ⟨requests, c.statements.groups.map (StatementGroup.call c.policy.fetchKeys),
    c.window.ordered, fun group => (group.calls ctx.registry c.policy.batchSize).map
      (StatementGroup.call c.policy.fetchKeys), ?_⟩
  constructor
  case appended => exact hrequests
  case numbered => exact harrived.ascending
  case raw =>
    rw [statements_calls, hrequests]
    exact congrArg _ (StatementBatch.parcels_gathered requests)
  case groups => exact sortBy_perm _ _
  case ascending => exact hwell.pairwise_ordered.imp RecordGroup.precedes_iff.1
  case enumerated => exact fun groups hperm => hwell.sortBy_eq_ordered hperm
  case grouped =>
    intro group hmem
    obtain ⟨statements, hbind, hparcels⟩ :=
      RecordGroup.exists_bind (hsendable.known group (hgroup group hmem))
    refine ⟨statements, hbind, ?_⟩
    have hdelivers := RecordGroup.plan_delivers c.policy.batchSize
      (hsendable.known group (hgroup group hmem))
    rw [statements_calls, ← hparcels, ← hdelivers.parcels]
    rfl
  case arrived =>
    intro group hmem
    obtain ⟨entry, hentry, rfl⟩ := List.mem_map.1 (hgroup group hmem)
    exact (hwell.sound entry hentry).arrived.ascending
  case batches =>
    intro call hmem
    rw [← List.map_flatMap, ← List.map_append] at hmem
    obtain ⟨group, -, rfl⟩ := List.mem_map.1 hmem
    rfl
  case calls =>
    rw [flushWith_seen ctx reset hsendable, hattempted, ← List.map_flatMap, ← List.map_append,
      List.map_map, List.map_map]
    rfl
  case succeeds => exact ⟨totals, hresult⟩
  case drained =>
    rw [hafter]
    exact isEmpty_settled c reset totals

/-- Statements of two texts and writes of three types come in turn.  The writes of `c` are put below
the top level, and those of `d` behind those of `b`. -/
def mixing : List Operation :=
  [.submit (.statement ⟨"x", [.null]⟩) true,
    .submit (.record ((insertion "b" 0).withId (.ofNat 1))) true,
    .submit (.statement ⟨"y", []⟩) true,
    .submit (.record ((insertion "b" 0).withId (.ofNat 2))) true,
    .submit (.record (insertion "c" (-1))) true,
    .submit (.record ((insertion "b" 0).withId (.ofNat 3))) true,
    .submit (.statement ⟨" x ", []⟩) true,
    .submit (.record (insertion "d" 0)) true,
    .submit (.record ((insertion "b" 0).withId (.ofNat 4))) true]

/-- All of them wait beside each other, and a call has room for three. -/
def mixed : Coordinator :=
  (performAll (lettered [⟨"b"⟩]) mixing (.new { batchSize := 3, flushOnMixed := false })
    untouched).2.1

theorem reachable_mixed : Reachable (lettered [⟨"b"⟩]) mixed :=
  (Reachable.new _).performAll _ untouched

/-- The flush sends the statements by text, then the writes of `c`, those of `b` in two calls, and
those of `d`. -/
theorem flush_in_order_of_mixed :
    Reachable (lettered [⟨"b"⟩]) mixed ∧ Store.Obliging untouched.store.behind ∧
      (∃ requests rawCalls ordered groupCalls,
        FlushOrder (lettered [⟨"b"⟩]) false mixed untouched requests rawCalls ordered groupCalls ∧
          ordered.map (fun group => (group.root.name, group.depth)) =
            [("c", 99), ("b", 100), ("d", 101)]) ∧
      (mixed.flushWith (lettered [⟨"b"⟩]) false untouched).2.2.store.seen.map
        (fun sight => sight.call.statements) =
          [[⟨"x", [.null]⟩, ⟨"x", []⟩], [⟨"y", []⟩], [⟨"insert into c () values ()", []⟩],
            [⟨"insert into b (id) values (?)", [.ofNat 1]⟩,
              ⟨"insert into b (id) values (?)", [.ofNat 2]⟩,
              ⟨"insert into b (id) values (?)", [.ofNat 3]⟩],
            [⟨"insert into b (id) values (?)", [.ofNat 4]⟩],
            [⟨"insert into d () values ()", []⟩]] := by
  have hstore : Store.Obliging untouched.store.behind := Memory.obliging rfl
  obtain ⟨requests, rawCalls, ordered, groupCalls, horder⟩ :=
    flush_in_order reachable_mixed false untouched hstore
  refine ⟨reachable_mixed, hstore, ⟨requests, rawCalls, ordered, groupCalls, horder, ?_⟩,
    by decide +kernel⟩
  rw [← horder.enumerated mixed.window.values (List.Perm.refl _)]
  decide +kernel

end Cascade.Coordinator
