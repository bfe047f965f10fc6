import Cascade.Proofs.Moves

/-!
# Well-formed coordinators

The invariant of coordinators: every group holds writes of its own, known root
type, no two groups were opened at the same time, and what waits in a buffer
stands in the order in which it was numbered.  Every move keeps the invariant,
so every reachable coordinator has it.
-/

namespace Cascade

/-- Requests in the order in which they were numbered, none of them later than `n`. -/
structure Arrived (n : Nat) (ids : List RequestId) : Prop where
  ascending : ids.Pairwise (· < ·)
  bounded : ∀ id ∈ ids, id.number ≤ n

namespace Arrived

variable {n : Nat} {ids : List RequestId}

theorem nil (n : Nat) : Arrived n [] :=
  ⟨List.Pairwise.nil, by simp⟩

theorem mono {m : Nat} (h : Arrived n ids) (hle : n ≤ m) : Arrived m ids :=
  ⟨h.ascending, fun id hmem => Nat.le_trans (h.bounded id hmem) hle⟩

theorem nodup (h : Arrived n ids) : ids.Nodup := by
  apply h.ascending.imp
  rintro id _ hlt rfl
  exact KeyOrder.irrefl id hlt

theorem concat (h : Arrived n ids) (id : RequestId) (hlt : n < id.number) :
    Arrived id.number (ids ++ [id]) := by
  constructor
  · rw [List.pairwise_append]
    refine ⟨h.ascending, List.pairwise_singleton _ _, ?_⟩
    intro earlier hmem last hlast
    rw [List.mem_singleton.1 hlast]
    exact Nat.lt_of_le_of_lt (h.bounded earlier hmem) hlt
  · intro other hmem
    rcases List.mem_append.1 hmem with hmem | hmem
    · exact Nat.le_trans (h.bounded other hmem) (Nat.le_of_lt hlt)
    · exact Nat.le_of_eq (congrArg RequestId.number (List.mem_singleton.1 hmem))

end Arrived

/-- A group holds writes of its root type, which is known, in the order of their requests. -/
structure RecordGroup.Sound (registry : Registry) (n : Nat) (root : RootType)
    (group : RecordGroup) : Prop where
  own : group.root = root
  known : registry.contains root
  members : ∀ write ∈ group.pending, write.2.root = root
  arrived : Arrived n (group.pending.map Prod.fst)

namespace RecordGroup.Sound

variable {registry : Registry} {n : Nat} {root : RootType} {group : RecordGroup}

theorem new (hknown : registry.contains root) (depth : Int) (sequence : Nat) :
    (RecordGroup.new root depth sequence).Sound registry n root where
  own := rfl
  known := hknown
  members := by simp [RecordGroup.new]
  arrived := .nil n

theorem mono {m : Nat} (h : group.Sound registry n root) (hle : n ≤ m) :
    group.Sound registry m root :=
  ⟨h.own, h.known, h.members, h.arrived.mono hle⟩

theorem drained (h : group.Sound registry n root) : group.drained.Sound registry n root where
  own := h.own
  known := h.known
  members := by simp [RecordGroup.drained]
  arrived := .nil n

theorem append
    (h : group.Sound registry n root) (id : RequestId) {record : Record}
    (hroot : record.root = root) (hlt : n < id.number) :
    (group.append id record).Sound registry id.number root where
  own := h.own
  known := h.known
  members := by
    intro write hmem
    rcases List.mem_append.1 hmem with hmem | hmem
    · exact h.members write hmem
    · rw [List.mem_singleton.1 hmem]
      exact hroot
  arrived := by
    have hids := h.arrived.concat id hlt
    simpa [RecordGroup.append] using hids

end RecordGroup.Sound

namespace Coordinator

variable {σ : Type}

/-- The invariant of coordinators; no request that waits has a number above `n`. -/
structure WellFormed (registry : Registry) (n : Nat) (c : Coordinator) : Prop where
  /-- Every group is sound under its key. -/
  sound : ∀ entry ∈ c.window.entries, entry.2.Sound registry n entry.1
  distinct : (c.window.values.map RecordGroup.sequence).Nodup
  opened : ∀ group ∈ c.window.values, group.sequence < c.opened
  /-- The statements have been appended in the order of their requests. -/
  statements : ∃ requests, c.statements = .gathered requests ∧ Arrived n (requests.map Prod.fst)

namespace WellFormed

variable {registry : Registry} {n : Nat} {c : Coordinator}

theorem of_nothing
    (hwindow : c.window = ∅) (hstatements : c.statements = .empty) :
    c.WellFormed registry n where
  sound := by
    intro entry hmem
    rw [hwindow] at hmem
    cases hmem
  distinct := by
    rw [hwindow]
    exact List.Pairwise.nil
  opened := by
    intro group hmem
    rw [hwindow] at hmem
    cases hmem
  statements := ⟨[], hstatements, .nil n⟩

/-- A flush that succeeds drains every group, or forgets all of them. -/
theorem settled (h : c.WellFormed registry n) (reset : Bool) (totals : Totals) :
    (c.settled reset totals).WellFormed registry n := by
  cases reset with
  | true => exact .of_nothing rfl rfl
  | false =>
      refine ⟨?_, ?_, ?_, ⟨[], rfl, .nil n⟩⟩
      · intro entry hmem
        obtain ⟨held, hheld, rfl⟩ := List.mem_map.1 hmem
        exact (h.sound held hheld).drained
      · have hsequences : (c.settled false totals).window.values.map RecordGroup.sequence =
            c.window.values.map RecordGroup.sequence := by
          simp [Coordinator.settled, Window.drained, Function.comp_def, RecordGroup.drained]
        rw [hsequences]
        exact h.distinct
      · intro group hmem
        simp only [Coordinator.settled, Window.drained, Dictionary.values_mapValues,
          Bool.false_eq_true, if_false] at hmem
        obtain ⟨held, hheld, rfl⟩ := List.mem_map.1 hmem
        exact h.opened held hheld

theorem flushWith [Store σ]
    (ctx : Context) (h : c.WellFormed registry n) (reset : Bool) (b : Backing σ) :
    (c.flushWith ctx reset b).2.1.WellFormed registry n := by
  unfold Coordinator.flushWith
  rcases c.executeBuffered ctx b with ⟨e | totals, after⟩
  · exact .of_nothing rfl rfl
  · exact h.settled reset totals

theorem numbered (h : c.WellFormed registry n) : c.numbered.WellFormed registry n :=
  ⟨h.sound, h.distinct, h.opened, h.statements⟩

theorem withStatement (h : c.WellFormed registry n) (hlt : n < c.requests) (s : Statement) :
    (c.withStatement s).WellFormed registry c.requests where
  sound := fun entry hmem => (h.sound entry hmem).mono (Nat.le_of_lt hlt)
  distinct := h.distinct
  opened := h.opened
  statements := by
    obtain ⟨requests, heq, harrived⟩ := h.statements
    refine ⟨requests ++ [(c.latest, s)], ?_, ?_⟩
    · rw [StatementBatch.gathered_append, ← heq]
      rfl
    · rw [List.map_append]
      exact harrived.concat c.latest hlt

/-- What is under the keys of a window after a write was added to a group of it. -/
theorem sound_withRecord
    {record : Record} {group : RecordGroup} (h : c.WellFormed registry n)
    (hgroup : group.Sound registry n record.root) (hlt : n < c.requests) :
    ∀ entry ∈ (c.withRecord record group).window.entries,
      entry.2.Sound registry c.requests entry.1 := by
  intro entry hmem
  rcases Assoc.mem_insert hmem with rfl | hmem
  · exact hgroup.append c.latest rfl hlt
  · exact (h.sound entry hmem).mono (Nat.le_of_lt hlt)

theorem statements_mono {m : Nat} (h : c.WellFormed registry n) (hle : n ≤ m) :
    ∃ requests, c.statements = .gathered requests ∧ Arrived m (requests.map Prod.fst) := by
  obtain ⟨requests, heq, harrived⟩ := h.statements
  exact ⟨requests, heq, harrived.mono hle⟩

theorem withRecord_member
    {record : Record} {group : RecordGroup} (h : c.WellFormed registry n) (hlt : n < c.requests)
    (hget : c.window.get? record.root = some group) :
    (c.withRecord record group).WellFormed registry c.requests := by
  have hgroup : group.Sound registry n record.root :=
    h.sound _ (Assoc.mem_of_get?_eq_some hget)
  obtain ⟨front, back, hvalues, hinsert⟩ := Dictionary.values_insert_of_get?_eq_some hget
  have hvalues' : (c.withRecord record group).window.values =
      front ++ group.append c.latest record :: back :=
    hinsert _
  refine ⟨h.sound_withRecord hgroup hlt, ?_, ?_, h.statements_mono (Nat.le_of_lt hlt)⟩
  · have hdistinct := h.distinct
    rw [hvalues] at hdistinct
    rw [hvalues']
    simpa [RecordGroup.append] using hdistinct
  · intro other hmem
    rw [hvalues'] at hmem
    rcases List.mem_append.1 hmem with hmem | hmem
    · exact h.opened other (by simp [hvalues, hmem])
    · rcases List.mem_cons.1 hmem with rfl | hmem
      · exact h.opened group (Dictionary.mem_values_of_get?_eq_some hget)
      · exact h.opened other (by simp [hvalues, hmem])

theorem withRecord_entrant
    {record : Record} (h : c.WellFormed registry n) (hlt : n < c.requests)
    (hknown : registry.contains record.root) (hget : c.window.get? record.root = none)
    (depth : Int) :
    ((c.withOpened depth).withRecord record (.new record.root depth c.opened)).WellFormed
      registry c.requests := by
  have hopened : (c.withOpened depth).WellFormed registry n :=
    ⟨h.sound, h.distinct, fun group hmem => Nat.lt_succ_of_lt (h.opened group hmem), h.statements⟩
  have hgroup : (RecordGroup.new record.root depth c.opened).Sound registry n record.root :=
    .new hknown depth c.opened
  have hvalues := Dictionary.values_insert_perm_of_get?_eq_none hget
    ((RecordGroup.new record.root depth c.opened).append c.latest record)
  refine ⟨hopened.sound_withRecord hgroup hlt, ?_, ?_, h.statements_mono (Nat.le_of_lt hlt)⟩
  · have hnew : c.opened ∉ c.window.values.map RecordGroup.sequence := by
      intro hmem
      obtain ⟨group, hgroup, heq⟩ := List.mem_map.1 hmem
      exact Nat.lt_irrefl _ (heq ▸ h.opened group hgroup)
    exact (hvalues.map RecordGroup.sequence).nodup_iff.2 (List.nodup_cons.2 ⟨hnew, h.distinct⟩)
  · intro other hmem
    rcases List.mem_cons.1 (hvalues.mem_iff.1 hmem) with rfl | hmem
    · exact Nat.lt_succ_self _
    · exact hopened.opened other hmem

theorem sendable (h : c.WellFormed registry n) : c.Sendable registry where
  known := by
    intro group hgroup write hwrite
    obtain ⟨entry, hentry, rfl⟩ := List.mem_map.1 hgroup
    rw [(h.sound entry hentry).members write hwrite]
    exact (h.sound entry hentry).known
  waiting := by
    obtain ⟨requests, heq, -⟩ := h.statements
    rw [heq]
    exact StatementBatch.waiting_gathered requests

end WellFormed

/-! ## Every reachable coordinator is well-formed -/

/-- A number that waits for its request is above `n`, and `n` is not above the latest. -/
structure Limited (n : Nat) (given : Bool) (c : Coordinator) : Prop where
  le : n ≤ c.requests
  lt : given = true → n < c.requests

/-- The invariant at a moment: a number that waits for its request is above all others. -/
def Moment.WellFormed (registry : Registry) (m : Moment σ) : Prop :=
  ∃ n, Limited n m.given m.coordinator ∧ m.coordinator.WellFormed registry n

theorem Limited.flushWith [Store σ]
    {n : Nat} {given : Bool} {c : Coordinator} (h : Limited n given c) (ctx : Context)
    (reset : Bool) (b : Backing σ) :
    Limited n given (c.flushWith ctx reset b).2.1 := by
  have hsame : (c.flushWith ctx reset b).2.1.requests = c.requests :=
    congrArg RequestId.number (latest_flushWith ctx reset c b)
  obtain ⟨hle, hlt⟩ := h
  constructor
  · simpa [hsame] using hle
  · simpa [hsame] using hlt

theorem Move.wellFormed [Store σ]
    {ctx : Context} {stage : Stage σ} {m next : Moment σ} (hmove : Move ctx stage m next)
    (h : m.WellFormed ctx.registry) : next.WellFormed ctx.registry := by
  obtain ⟨n, hn, hc⟩ := h
  cases hmove with
  | flush given reset c b => exact ⟨n, hn.flushWith ctx reset b, hc.flushWith ctx reset b⟩
  | number given c b =>
      exact ⟨n, ⟨Nat.le_succ_of_le hn.le, fun _ => Nat.lt_succ_of_le hn.le⟩, hc.numbered⟩
  | statement s c b =>
      exact ⟨c.requests, ⟨Nat.le_refl _, nofun⟩, hc.withStatement (hn.lt rfl) s⟩
  | member record group c b _ hget =>
      exact ⟨c.requests, ⟨Nat.le_refl _, nofun⟩, hc.withRecord_member (hn.lt rfl) hget⟩
  | entrant record depth c b hknown hget _ =>
      exact ⟨c.requests, ⟨Nat.le_refl _, nofun⟩,
        hc.withRecord_entrant (hn.lt rfl) hknown hget depth⟩
  | force given root c b => exact ⟨n, hn, hc⟩
  | execute given request c b => exact ⟨n, hn, hc⟩
  | clear given c b => exact ⟨n, ⟨hn.le, hn.lt⟩, .of_nothing rfl rfl⟩
  | adjust given policy keys c b =>
      exact ⟨n, ⟨hn.le, hn.lt⟩, ⟨hc.sound, hc.distinct, hc.opened, hc.statements⟩⟩

theorem Reachable.wellFormed {ctx : Context} {c : Coordinator} (h : Reachable ctx c) :
    ∃ n, n ≤ c.requests ∧ c.WellFormed ctx.registry n := by
  induction h with
  | new policy => exact ⟨0, Nat.le_refl _, .of_nothing rfl rfl⟩
  | step operation b _ ih =>
      obtain ⟨n, hle, hc⟩ := ih
      obtain ⟨last, hpath⟩ := path_stages ctx false operation _ b
      obtain ⟨⟨m, hm, hwell⟩, -⟩ := hpath.keeps Move.wellFormed ⟨n, ⟨hle, nofun⟩, hc⟩
      exact ⟨m, hm.le, hwell⟩

/-- Wherever a stage of an operation on a reachable coordinator begins, the invariant holds. -/
theorem Reachable.stage [Store σ] {ctx : Context} {c : Coordinator} (h : Reachable ctx c)
    {operation : Operation} {b : Backing σ} {stage : Stage σ}
    (hmem : stage ∈ stages ctx operation c b) :
    ∃ before after, Moment.WellFormed ctx.registry before ∧ Move ctx stage before after := by
  obtain ⟨n, hle, hc⟩ := h.wellFormed
  obtain ⟨last, hpath⟩ := path_stages ctx false operation c b
  exact (hpath.keeps Move.wellFormed ⟨n, ⟨hle, nofun⟩, hc⟩).2 stage hmem

theorem Reachable.flush_sendable [Store σ] {ctx : Context} {c : Coordinator} (h : Reachable ctx c)
    {operation : Operation} {b begun : Backing σ} {reset : Bool} {d : Coordinator}
    (hmem : Stage.flush reset d begun ∈ stages ctx operation c b) :
    d.Sendable ctx.registry := by
  obtain ⟨before, after, ⟨n, -, hwell⟩, hmove⟩ := h.stage hmem
  cases hmove
  exact hwell.sendable

end Coordinator

end Cascade
