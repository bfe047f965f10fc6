import Cascade.Proofs.FlushOrder
import Cascade.Proofs.NestedCounts

/-!
# Failed flushes

A flush that fails has made the planned calls up to the refused one and none
after it.  Its error counts what was executed before, through all levels of the
flush, and it leaves a coordinator in which nothing is buffered and all else is
as it was.
-/

namespace Cascade

theorem StatementBatch.normal_of_mem_arranged
    {requests : List (RequestId × Statement)} {parcel : Parcel} (h : parcel ∈ arranged requests) :
    ∃ text, parcel.statement.text = normalText text := by
  obtain ⟨text, -, hparcel⟩ := List.mem_flatMap.1 h
  obtain ⟨request, -, rfl⟩ := List.mem_map.1 hparcel
  exact ⟨request.2.text, rfl⟩

theorem RecordGroup.normal_of_mem_parcels
    {registry : Registry} {group : RecordGroup} {parcel : Parcel}
    (h : parcel ∈ group.parcels registry) :
    ∃ text, parcel.statement.text = normalText text := by
  obtain ⟨write, -, hwrite⟩ := List.mem_filterMap.1 h
  obtain ⟨d, -, rfl⟩ := Option.map_eq_some_iff.1 hwrite
  exact ⟨(d.bind write.2).text, rfl⟩

namespace Coordinator

variable {σ : Type}

theorem WellFormed.normal_of_mem_parcels
    {registry : Registry} {n : Nat} {c : Coordinator} (h : c.WellFormed registry n)
    {parcel : Parcel} (hmem : parcel ∈ c.parcels registry) :
    ∃ text, parcel.statement.text = normalText text := by
  rcases List.mem_append.1 hmem with hmem | hmem
  · obtain ⟨requests, hrequests, -⟩ := h.statements
    rw [hrequests, StatementBatch.parcels_gathered] at hmem
    exact StatementBatch.normal_of_mem_arranged hmem
  · obtain ⟨group, -, hparcel⟩ := List.mem_flatMap.1 hmem
    exact RecordGroup.normal_of_mem_parcels hparcel

theorem WellFormed.normal_of_mem_calls
    {registry : Registry} {n : Nat} {c : Coordinator} (h : c.WellFormed registry n)
    {call : StatementGroup} (hmem : call ∈ c.calls registry) :
    ∃ text, call.text = normalText text := by
  obtain ⟨entry, rest, hwaiting⟩ := List.exists_cons_of_ne_nil (h.sendable.call_waiting call hmem)
  have hparcel : (⟨entry.origin, ⟨call.text, entry.params⟩⟩ : Parcel) ∈ c.parcels registry := by
    rw [← h.sendable.parcels_calls]
    refine List.mem_flatMap.2 ⟨call, hmem, ?_⟩
    simp [StatementGroup.parcels, hwaiting]
  exact h.normal_of_mem_parcels hparcel

theorem seen_of_obliging [Store σ]
    (ctx : Context) (reset : Bool) {c : Coordinator} (h : c.Sendable ctx.registry)
    {b : Backing (Watched σ)} (hstore : Store.Obliging b.store.behind) :
    (c.flushWith ctx reset b).2.2.store.seen = b.store.seen ++
      ((c.calls ctx.registry).map (StatementGroup.call c.policy.fetchKeys)).map
        (fun call => ⟨call, none⟩) := by
  rw [flushWith_seen ctx reset h, attempted_of_obliging _ _ hstore.watched, List.map_map,
    List.map_map]
  rfl

/-- What an operation does of which a flush fails: a flush of `d` that begins over `begun`.

The flush makes the calls `made`, all of which are accepted, and then the call `failing`, which is
refused; the calls `rest` are not made. -/
structure FailedFlush [Store σ] (ctx : Context) (operation : Operation) (c : Coordinator)
    (b : Backing (Watched σ)) (reset : Bool) (d : Coordinator) (begun : Backing (Watched σ))
    (made : List Call) (failing : Call) (rest : List Call) (e : StoreError) : Prop where
  /-- Over a store that refuses nothing, the flush makes all of the calls. -/
  planned : ∀ {τ : Type} [Store τ] (other : Backing (Watched τ)),
    Store.Obliging other.store.behind →
      (d.flushWith ctx reset other).2.2.store.seen =
        other.store.seen ++ (made ++ failing :: rest).map (fun call => ⟨call, none⟩)
  /-- Here it makes those up to the refused one. -/
  calls : (d.flushWith ctx reset begun).2.2.store.seen =
    begun.store.seen ++ made.map (fun call => ⟨call, none⟩) ++ [⟨failing, some e⟩]
  /-- The text of the refused call is in normal form. -/
  normal : ∃ text, failing.text = normalText text
  /-- The flush counts in three levels, each of which counts from nothing and adds what it had
  executed to the error of the level below. -/
  counted : d.drain ctx.registry begun.store =
    (.error (.execution failing.text ((made.flatMap Call.statements).length + e.succeeded)
        e.message),
      (d.flushWith ctx reset begun).2.2.store)
  /-- The operation ends with the flush.  Its error names the text of the refused call and counts
  what was executed; the coordinator is the one before the flush without its buffers. -/
  result : perform ctx operation c b =
    (.error (.execution failing.text ((made.flatMap Call.statements).length + e.succeeded)
        e.message),
      { d with statements := .empty, window := ∅, maxDepth := 0, highWater := 0 },
      (d.flushWith ctx reset begun).2.2)

theorem length_statements_calls (fetch : Bool) (groups : List StatementGroup) :
    ((groups.map (StatementGroup.call fetch)).flatMap Call.statements).length =
      sumOf (groups.map StatementGroup.size) := by
  rw [statements_calls, List.length_map]
  induction groups with
  | nil => rfl
  | cons group rest ih => simp [sumOf, ih]

/-- Over a recording store in which no failure is armed a flush succeeds and records everything that
waits. -/
theorem flushWith_of_unarmed
    (ctx : Context) (reset : Bool) {c : Coordinator} (h : c.Sendable ctx.registry)
    {b : Backing Memory} (hstore : b.store.failAt = none) :
    (∃ totals, (c.flushWith ctx reset b).1 = .ok totals) ∧
      (c.flushWith ctx reset b).2.2.store.log =
        b.store.log ++ (c.parcels ctx.registry).map Parcel.statement ∧
      (c.flushWith ctx reset b).2.2.store.failAt = none := by
  obtain ⟨totals, after, hpass, hlog, hafter⟩ :=
    Memory.executeGroups_of_spared c.policy.fetchKeys (c.calls ctx.registry) {}
      (Memory.spared_of_unarmed hstore _)
  rw [result_flushWith ctx reset h, store_flushWith ctx reset h, hpass, ← h.parcels_calls]
  exact ⟨⟨totals, rfl⟩, hlog, hafter.trans hstore⟩

/-- A failed flush is an exact prefix of the planned calls followed by a full wipe. -/
theorem failed_flush
    {ctx : Context} {c : Coordinator} (hc : Reachable ctx c) (operation : Operation)
    (reset : Bool) (d : Coordinator) :
    (∀ {σ : Type} [Store σ] (b begun : Backing (Watched σ)) (growth : List Seen),
      .flush reset d begun ∈ stages ctx operation c b →
      (d.flushWith ctx reset begun).2.2.store.seen = begun.store.seen ++ growth →
      (∃ seen ∈ growth, seen.refusal ≠ none) →
      ∃ made failing rest e,
        FailedFlush ctx operation c b reset d begun made failing rest e) ∧
    (∀ (b begun : Backing Memory), .flush reset d begun ∈ stages ctx operation c b →
      ∃ planned : List Statement,
        (∀ other : Backing Memory, other.store.failAt = none →
          (d.flushWith ctx reset other).2.2.store.log = other.store.log ++ planned) ∧
        ∀ p, 1 ≤ p → p ≤ planned.length →
          begun.store.failAt = some (begun.store.executed.length + p) →
          (perform ctx operation c b).2.2.store.log =
            begun.store.log ++ planned.take (p - 1) ∧
          (∃ text message,
            (perform ctx operation c b).1 = .error (.execution text (p - 1) message)) ∧
          (perform ctx operation c b).2.1 =
            { d with statements := .empty, window := ∅, maxDepth := 0, highWater := 0 }) := by
  constructor
  · intro σ _ b begun growth hmem hgrowth hrefused
    obtain ⟨before, after, ⟨n, -, hwell⟩, hmove⟩ := hc.stage hmem
    cases hmove
    have hsendable := hwell.sendable
    have hseen := flushWith_seen ctx reset hsendable begun
    rcases flushWith_cases ctx reset hsendable begun with
      ⟨totals, hattempted, -, -, -⟩ | ⟨sent, refused, rest, e, hcalls, hattempted, hfail, hwiped⟩
    · -- All calls of the flush were accepted, against the assumption.
      obtain ⟨seen, hseenmem, hnot⟩ := hrefused
      rw [hgrowth, hattempted, List.map_map] at hseen
      rw [List.append_cancel_left hseen] at hseenmem
      obtain ⟨group, -, rfl⟩ := List.mem_map.1 hseenmem
      exact absurd rfl hnot
    · refine ⟨sent.map (StatementGroup.call d.policy.fetchKeys), refused.call d.policy.fetchKeys,
        rest.map (StatementGroup.call d.policy.fetchKeys), e, ?_⟩
      constructor
      case planned =>
        intro τ _ other hobliging
        rw [seen_of_obliging ctx reset hsendable hobliging, hcalls, List.map_append,
          List.map_cons]
      case calls =>
        rw [hseen, hattempted, List.map_append, List.map_map, List.map_map, List.append_assoc]
        rfl
      case normal =>
        have hplanned : refused ∈ d.calls ctx.registry := by simp [hcalls]
        exact hwell.normal_of_mem_calls hplanned
      case counted =>
        rw [← flushWith_eq_drain ctx reset, hfail, length_statements_calls]
        rfl
      case result =>
        rw [perform_of_failed_flush ctx hmem hfail, length_statements_calls]
        exact Prod.ext rfl (Prod.ext hwiped rfl)
  · intro b begun hmem
    have hsendable := hc.flush_sendable hmem
    refine ⟨(d.parcels ctx.registry).map Parcel.statement, ?_, ?_⟩
    · intro other hother
      exact (flushWith_of_unarmed ctx reset hsendable hother).2.1
    · intro p hpos hle harmed
      have hcount : sumOf ((d.calls ctx.registry).map StatementGroup.size) =
          ((d.parcels ctx.registry).map Parcel.statement).length := by
        rw [← length_statements_calls d.policy.fetchKeys, statements_calls,
          hsendable.parcels_calls]
      obtain ⟨⟨text, message, herror⟩, hlog⟩ :=
        Memory.executeGroups_of_armed d.policy.fetchKeys (d.calls ctx.registry) {} harmed hpos
          (hcount ▸ hle)
      have hfail : (d.flushWith ctx reset begun).1 = .error (.execution text (p - 1) message) := by
        rw [result_flushWith ctx reset hsendable, herror, Nat.zero_add]
      have hwiped := coordinator_flushWith ctx reset d begun
      rw [hfail] at hwiped
      rw [perform_of_failed_flush ctx hmem hfail]
      refine ⟨?_, ⟨text, message, rfl⟩, hwiped⟩
      rw [store_flushWith ctx reset hsendable, hlog, hsendable.parcels_calls]

/-- The store refuses the sixth statement that it is asked for. -/
def armed : Backing (Watched Memory) := ⟨⟨[], { failAt := some 6 }⟩, {}, []⟩

/-- The refusal meets the second write of the fourth call, behind two calls of statements and one of
writes. -/
theorem failed_flush_of_mixed :
    (∃ made failing rest e,
      FailedFlush (lettered [⟨"b"⟩]) (.flush false) mixed armed false mixed armed made failing rest
          e ∧
        made.map Call.statements =
          [[⟨"x", [.null]⟩, ⟨"x", []⟩], [⟨"y", []⟩], [⟨"insert into c () values ()", []⟩]] ∧
        failing.statements =
          [⟨"insert into b (id) values (?)", [.ofNat 1]⟩,
            ⟨"insert into b (id) values (?)", [.ofNat 2]⟩,
            ⟨"insert into b (id) values (?)", [.ofNat 3]⟩] ∧
        e.succeeded = 1) ∧
      ∃ (planned : List Statement) (text message : String), planned.length = 9 ∧
        planned.take 5 =
          [⟨"x", [.null]⟩, ⟨"x", []⟩, ⟨"y", []⟩, ⟨"insert into c () values ()", []⟩,
            ⟨"insert into b (id) values (?)", [.ofNat 1]⟩] ∧
        (perform (lettered [⟨"b"⟩]) (.flush false) mixed
          ⟨armed.store.behind, {}, []⟩).2.2.store.log = planned.take 5 ∧
        (perform (lettered [⟨"b"⟩]) (.flush false) mixed ⟨armed.store.behind, {}, []⟩).1 =
          .error (.execution text 5 message) := by
  obtain ⟨hwatched, harmed⟩ := failed_flush reachable_mixed (.flush false) false mixed
  constructor
  · obtain ⟨made, failing, rest, e, hfailed⟩ :=
      hwatched armed armed _ (List.mem_singleton_self _) rfl (by decide +kernel)
    have hseen : (mixed.flushWith (lettered [⟨"b"⟩]) false armed).2.2.store.seen.map
        (fun sight => (sight.call.statements, sight.refusal.map StoreError.succeeded)) =
          [([⟨"x", [.null]⟩, ⟨"x", []⟩], none), ([⟨"y", []⟩], none),
            ([⟨"insert into c () values ()", []⟩], none)] ++
          [([⟨"insert into b (id) values (?)", [.ofNat 1]⟩,
            ⟨"insert into b (id) values (?)", [.ofNat 2]⟩,
            ⟨"insert into b (id) values (?)", [.ofNat 3]⟩], some 1)] := by
      decide +kernel
    rw [hfailed.calls, List.map_append] at hseen
    obtain ⟨hmade, hfailing⟩ := List.append_inj' hseen rfl
    have hmade := congrArg (List.map Prod.fst) hmade
    simp only [armed, List.nil_append, List.map_map] at hmade
    simp only [List.map_cons, List.map_nil, Option.map_some, List.cons.injEq, Prod.mk.injEq,
      Option.some.injEq, and_true] at hfailing
    exact ⟨made, failing, rest, e, hfailed, hmade, hfailing⟩
  · obtain ⟨planned, hlog, hfail⟩ :=
      harmed ⟨armed.store.behind, {}, []⟩ ⟨armed.store.behind, {}, []⟩ (List.mem_singleton_self _)
    have hplanned : (mixed.flushWith (σ := Memory) (lettered [⟨"b"⟩]) false
        ⟨{}, {}, []⟩).2.2.store.log = planned :=
      hlog ⟨{}, {}, []⟩ rfl
    have hlength : planned.length = 9 := by
      rw [← hplanned]
      decide +kernel
    obtain ⟨hrecorded, ⟨text, message, herror⟩, -⟩ := hfail 6 (by decide) (by omega) rfl
    refine ⟨planned, text, message, hlength, ?_, hrecorded, herror⟩
    rw [← hplanned]
    decide +kernel

end Coordinator

end Cascade
