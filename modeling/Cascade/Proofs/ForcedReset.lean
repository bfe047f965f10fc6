import Cascade.Proofs.Precedence

/-!
# Forced resets

A type whose imported types have no group has no known place beside the groups
that are there.  So these are flushed and forgotten, and the type starts a
window of its own.  If a flush was due before, because statements waited that
must not be mixed with records, it has drained the groups without forgetting
them, and the reset finds nothing to execute.
-/

namespace Cascade

/-- A type that imports others, none of which has a group, has no place beside other groups. -/
theorem placement_eq_unknown
    {imported : List RootType} {window : Window} (hsome : window.isEmpty = false)
    (himports : imported ≠ []) (habsent : ∀ target ∈ imported, window.get? target = none)
    (deepest : Int) : placement 0 imported window deepest = .unknown := by
  have hnone : imported.findSome? (fun target => window.get? target) = none :=
    List.findSome?_eq_none_iff.2 habsent
  simp [placement, hsome, himports, hnone]

namespace Coordinator

variable {σ : Type}

/-! ## The write that starts a window -/

/-- A write is all that waits in a coordinator, in the only group of its window. -/
structure WaitsAlone (record : Record) (id : RequestId) (sequence : Nat) (c : Coordinator) :
    Prop where
  statements : c.statements = .empty
  window : c.window.entries = [(record.root, ⟨record.root, 100, sequence, [(id, record)]⟩)]
  maxDepth : c.maxDepth = 100
  highWater : c.highWater = 1

section Reset

variable [Store σ] {ctx : Context} {record : Record} {c : Coordinator}

/-- A write is buffered in a window of its own: the groups have been forgotten in between. -/
def startedBy (record : Record) (d : Coordinator) : Coordinator :=
  (d.withOpened 100).withRecord record (.new record.root 100 d.opened)

theorem queueRecord_of_failed_reset
    (hnone : c.window.get? record.root = none)
    (hplace : placement record.depth (ctx.registry.imported record.root) c.window c.maxDepth =
      .unknown) {b : Backing σ} {e : WriteError} {last : Coordinator × Backing σ}
    (hreset : c.numbered.flushWith ctx true (noteForced record.root b) = (.error e, last)) :
    c.queueRecord ctx record b = (.error e, last) := by
  have hnone' : c.numbered.window.get? record.root = none := hnone
  have hplace' : placement record.depth (ctx.registry.imported record.root) c.numbered.window
      c.numbered.maxDepth = .unknown := hplace
  rw [← traceQueueRecord_snd]
  simp [traceQueueRecord, traceFile, tracePlaceGroup, traceFlush, Traced.andThen, Traced.stage,
    hnone', hplace', hreset]

/-- Where the place of a write is unknown, it is buffered after a flush in which all groups were
forgotten, and it does not fill its group. -/
theorem queueRecord_of_reset
    (hcap : 1 < c.policy.cap) (htop : record.depth = 0)
    (hnone : c.window.get? record.root = none)
    (hplace : placement record.depth (ctx.registry.imported record.root) c.window c.maxDepth =
      .unknown) {b after : Backing σ} {totals : Totals}
    (hreset : c.numbered.flushWith ctx true (noteForced record.root b) =
      (.ok totals, c.numbered.settled true totals, after)) :
    c.queueRecord ctx record b =
      (.ok (.queued c.numbered.latest), startedBy record (c.numbered.settled true totals),
        noteRecord record (.new record.root 100 c.opened) (c.numbered.settled true totals)
          after) := by
  have hnone' : c.numbered.window.get? record.root = none := hnone
  have hplace' : placement record.depth (ctx.registry.imported record.root) c.numbered.window
      c.numbered.maxDepth = .unknown := hplace
  have hdepth : baseDepth + record.depth = 100 := by
    rw [htop]
    rfl
  have hroom : ¬(startedBy record (c.numbered.settled true totals)).policy.cap ≤
      (startedBy record (c.numbered.settled true totals)).highWater :=
    Nat.not_le.2 hcap
  have hopened : (c.numbered.settled true totals).opened = c.opened := rfl
  rw [startedBy, hopened] at hroom ⊢
  rw [← traceQueueRecord_snd]
  simp [traceQueueRecord, traceFile, tracePlaceGroup, traceFlush, traceFlushIf, Traced.andThen,
    Traced.stage, Traced.done, hnone', hplace', hreset, hdepth, hopened, hroom]

theorem waitsAlone_startedBy (record : Record) (totals : Totals) (c : Coordinator) :
    WaitsAlone record c.latest c.opened (startedBy record (c.settled true totals)) :=
  ⟨rfl, rfl, rfl, rfl⟩

/-- What a write that forces a reset of `c` leads to, given a flush of all that waits in `c`: the store
is that of the flush.  If the flush succeeds, the write is buffered and nothing else waits; if it
fails, nothing is buffered and there is no group. -/
structure StartsAnew (record : Record) (c : Coordinator) (flushed : Step Coordinator σ Totals)
    (step : Step Coordinator σ Outcome) : Prop where
  store : step.2.2.store = flushed.2.2.store
  buffered : ∀ totals, flushed.1 = .ok totals →
    step.1 = .ok (.queued c.numbered.latest) ∧
      WaitsAlone record c.numbered.latest c.opened step.2.1
  failed : ∀ e, flushed.1 = .error e →
    step.1 = .error e ∧ step.2.1.statements = .empty ∧ step.2.1.window = ∅ ∧ step.2.1.maxDepth = 0

/-- The flush in which the groups are forgotten is one of all that waits. -/
theorem startsAnew_queueRecord
    {n : Nat} (hwell : c.WellFormed ctx.registry n) (hcap : 1 < c.policy.cap)
    (htop : record.depth = 0) (hnone : c.window.get? record.root = none)
    (hplace : placement record.depth (ctx.registry.imported record.root) c.window c.maxDepth =
      .unknown) (reset : Bool) (b : Backing σ) :
    StartsAnew record c (c.flushWith ctx reset b) (c.queueRecord ctx record b) := by
  have hresult := result_flushWith ctx true hwell.numbered.sendable (noteForced record.root b)
  have hstore := store_flushWith ctx true hwell.numbered.sendable (noteForced record.root b)
  have hsame : (c.flushWith ctx reset b).1 =
      (c.numbered.flushWith ctx true (noteForced record.root b)).1 := by
    rw [result_flushWith ctx reset hwell.sendable, hresult]
    rfl
  have hlast : (c.flushWith ctx reset b).2.2.store =
      (c.numbered.flushWith ctx true (noteForced record.root b)).2.2.store := by
    rw [store_flushWith ctx reset hwell.sendable, hstore]
    rfl
  rcases settled_or_wiped ctx true c.numbered (noteForced record.root b) with
    ⟨totals, after, hreset⟩ | ⟨e, after, hreset⟩
  all_goals rw [hreset] at hsame hlast
  · rw [queueRecord_of_reset hcap htop hnone hplace hreset]
    refine ⟨hlast.symm, ?_, ?_⟩
    · intro _ _
      exact ⟨rfl, waitsAlone_startedBy record totals c.numbered⟩
    · intro e hfail
      cases hsame.symm.trans hfail
  · rw [queueRecord_of_failed_reset hnone hplace hreset]
    refine ⟨hlast.symm, ?_, ?_⟩
    · intro totals hok
      cases hsame.symm.trans hok
    · intro e' hfail
      cases hsame.symm.trans hfail
      exact ⟨rfl, rfl, rfl, rfl⟩

end Reset

/-- A write of the top level that is buffered beside groups, whose type has no group and imports
others of which none has a group either, flushes all that waits before it, statements and records,
and is the only request that waits then. -/
theorem forced_reset [Store σ]
    {ctx : Context} {c : Coordinator} (hc : Reachable ctx c) (hcap : 1 < c.policy.cap)
    (hsome : c.window.isEmpty = false) {record : Record}
    (hknown : ctx.registry.contains record.root) (htop : record.depth = 0)
    (hnone : c.window.get? record.root = none)
    (himports : ctx.registry.imported record.root ≠ [])
    (habsent : ∀ target ∈ ctx.registry.imported record.root, c.window.get? target = none)
    (b : Backing σ) :
    StartsAnew record c (c.flush ctx b) (c.submit ctx (.record record) true b) := by
  obtain ⟨n, -, hwell⟩ := hc.wellFormed
  have hplace := placement_eq_unknown hsome himports habsent c.maxDepth
  rw [← htop] at hplace
  rw [submit, submitRecord, if_pos hknown]
  rcases hmixed : c.policy.flushOnMixed && !c.statements.isEmpty with _ | _
  · -- Only the flush in which the groups are forgotten is made.
    exact startsAnew_queueRecord hwell hcap htop hnone hplace false b
  · rcases settled_or_wiped ctx false c b with ⟨totals, after, hflush⟩ | ⟨e, after, hflush⟩
    all_goals
      simp only [flushIf, flush, hflush, Bool.not_true, Bool.false_or, if_true, Step.andThen]
    · -- The groups have been drained but not forgotten, so the place is still unknown.
      obtain ⟨hnone', hplace'⟩ := settled_entrant hnone hplace totals
      have hqueue := startsAnew_queueRecord (hwell.settled false totals) hcap htop hnone' hplace'
        false after
      rw [flushWith_of_isEmpty (isEmpty_settled c false totals)] at hqueue
      refine ⟨hqueue.store, fun _ _ => hqueue.buffered {} rfl, fun e hfail => ?_⟩
      cases hfail
    · refine ⟨rfl, fun totals hok => ?_, fun e' hfail => ?_⟩
      · cases hok
      · cases hfail
        exact ⟨rfl, rfl, rfl, rfl⟩

/-- A statement waits behind the drained groups of `a`, `b` and `c`; `d` imports a type without a
group. -/
def statementBehind : Coordinator × Backing (Watched Memory) :=
  (perform (lettered [⟨"e"⟩]) (.submit (.statement ⟨"select 1", []⟩) true)
    (threeOpened [⟨"e"⟩]).2.1 (threeOpened [⟨"e"⟩]).2.2).2

theorem forced_reset_of_statementBehind :
    let step := statementBehind.1.submit (lettered [⟨"e"⟩]) (.record (insertion "d" 0)) true
      statementBehind.2
    WaitsAlone (insertion "d" 0) ⟨5⟩ 3 step.2.1 ∧
      step.2.2.store.behind.executed.map Executed.text =
        ["insert into a () values ()", "insert into b () values ()",
          "insert into c () values ()", "select 1"] := by
  have hreachable : Reachable (lettered [⟨"e"⟩]) statementBehind.1 :=
    .step _ _ (reachable_threeOpened _)
  have hknown : (lettered [⟨"e"⟩]).registry.contains (insertion "d" 0).root := by
    decide
  have hreset := forced_reset hreachable (by decide) (by decide) hknown rfl rfl (by decide)
    (by decide) statementBehind.2
  exact ⟨(hreset.buffered _ rfl).2, by decide⟩

end Coordinator

end Cascade
