import Cascade.Proofs.Fetching
import Cascade.Proofs.Marks

/-!
# Thresholds

A request that is buffered is appended first.  A flush follows it if what it was
appended to has reached its threshold by then: the high-water mark that of a group
of records, or the largest group of statements the batch size.

Three flushes can be met while a request is buffered, each with an occasion of its
own: something of the other kind waits, the place of the request is unknown, or a
threshold is reached.
-/

namespace Cascade

theorem Window.largest_of_isDrained {window : Window} (h : window.isDrained = true) :
    window.largest = 0 := by
  refine Nat.lt_one_iff.1 (greatestOf_lt Nat.one_pos (fun count hcount => ?_))
  obtain ⟨group, hmem, rfl⟩ := List.mem_map.1 hcount
  have hempty : group.isEmpty = true := List.all_eq_true.1 h group hmem
  rw [RecordGroup.size, List.isEmpty_iff.1 hempty]
  exact Nat.one_pos

namespace Coordinator

variable {σ α β γ : Type}

/-! ## Loads -/

/-- What is compared with a threshold when a request is buffered: the size of the largest group of
its kind. -/
def load (request : Request) (c : Coordinator) : Nat :=
  match request with
  | .record _ => c.highWater
  | .statement _ => c.statements.largest

/-- The load that is too much for a coordinator when a request is buffered. -/
def threshold (request : Request) (c : Coordinator) : Nat :=
  match request with
  | .record _ => c.policy.cap
  | .statement _ => c.policy.batchSize

/-- The load of a coordinator to which a request is appended. -/
def loadWith (request : Request) (c : Coordinator) : Nat :=
  match request with
  | .record record => max c.highWater (c.buffered record.root + 1)
  | .statement s => (c.statements.append s (some c.numbered.latest)).2.largest

/-- The request is a record write whose root type has no group and no known place for one. -/
def Forces (ctx : Context) (request : Request) (c : Coordinator) : Prop :=
  match request with
  | .record record => c.window.get? record.root = none ∧
      placement record.depth (ctx.registry.imported record.root) c.window c.maxDepth = .unknown
  | .statement _ => False

/-! ## Appending a request -/

/-- What appending a request, under a new number, makes of a coordinator. -/
inductive Entered (ctx : Context) (c : Coordinator) : Request → Coordinator → Prop
  | statement (s : Statement) : Entered ctx c (.statement s) (c.numbered.withStatement s)
  | member (record : Record) (group : RecordGroup) : c.window.get? record.root = some group →
      Entered ctx c (.record record) (c.numbered.withRecord record group)
  | entrant (record : Record) (depth : Int) : c.window.get? record.root = none →
      placement record.depth (ctx.registry.imported record.root) c.window c.maxDepth =
        .depth depth →
      Entered ctx c (.record record)
        ((c.numbered.withOpened depth).withRecord record (.new record.root depth c.opened))
  | reset (record : Record) (totals : Totals) : Forces ctx (.record record) c →
      Entered ctx c (.record record)
        (((c.numbered.settled true totals).withOpened (baseDepth + record.depth)).withRecord record
          (.new record.root (baseDepth + record.depth) c.opened))

namespace Entered

variable {ctx : Context} {c queued : Coordinator} {request : Request}

theorem policy (h : Entered ctx c request queued) : queued.policy = c.policy := by
  cases h <;> rfl

theorem threshold (h : Entered ctx c request queued) :
    queued.threshold request = c.threshold request := by
  unfold Coordinator.threshold
  rw [h.policy]

/-- The statements that wait stay as they are when a record write is appended, unless all of them
were flushed. -/
theorem statements (h : Entered ctx c request queued) :
    queued.statements = c.statements ∨ queued.statements = .empty ∨
      ∃ s, request = .statement s ∧
        queued.statements = (c.statements.append s (some c.numbered.latest)).2 := by
  cases h with
  | statement s => exact Or.inr (Or.inr ⟨s, rfl, rfl⟩)
  | member | entrant => exact Or.inl rfl
  | reset => exact Or.inr (Or.inl rfl)

/-- The load after a request was appended is the one to expect, unless something was flushed for
its place. -/
theorem load (h : Entered ctx c request queued) (hmarks : c.Marks)
    (hkept : Forces ctx request c → c.isEmpty = true) :
    queued.load request = c.loadWith request := by
  cases h with
  | statement s => rfl
  | member record group hget =>
      simp only [Coordinator.load, loadWith, withRecord, RecordGroup.size_append, buffered, hget]
      rfl
  | entrant record depth hnone =>
      simp only [Coordinator.load, loadWith, withRecord, RecordGroup.size_append, buffered, hnone]
      rfl
  | reset record totals hforces =>
      have hempty := hkept hforces
      rw [isEmpty, Bool.and_eq_true] at hempty
      have hmark : c.highWater = 0 := by
        rw [hmarks.highWater, Window.largest_of_isDrained hempty.2]
      simp only [Coordinator.load, loadWith, withRecord, RecordGroup.size_append, buffered,
        hforces.1, hmark]
      rfl

theorem isEmpty_eq_false (h : Entered ctx c request queued) : queued.isEmpty = false := by
  have hrecord : ∀ (record : Record) (group : RecordGroup) (d : Coordinator),
      (d.withRecord record group).isEmpty = false := by
    intro record group d
    rw [isEmpty, Bool.and_eq_false_iff]
    refine Or.inr (Bool.eq_false_iff.2 (fun hdrained => ?_))
    have hget := get?_withRecord record group d record.root
    rw [if_pos rfl] at hget
    have hempty := List.all_eq_true.1 hdrained _ (Dictionary.mem_values_of_get?_eq_some hget)
    simp [RecordGroup.isEmpty, RecordGroup.append] at hempty
  cases h with
  | statement s =>
      rw [isEmpty, Bool.and_eq_false_iff]
      refine Or.inl (Bool.eq_false_iff.2 (fun hempty => ?_))
      have hlength := (StatementBatch.parcels_append_perm s (some c.numbered.latest)
        c.statements).length_eq
      have hnone : (c.statements.append s (some c.numbered.latest)).2.groups = [] :=
        groups_eq_nil_of_isEmpty hempty
      simp [StatementBatch.parcels, hnone] at hlength
  | member | entrant | reset => exact hrecord _ _ _

end Entered

/-! ## Stages of a request that is buffered -/

namespace Traced

theorem andThen_assoc
    (t : Traced σ α) (f : α → Coordinator → Backing σ → Traced σ β)
    (g : β → Coordinator → Backing σ → Traced σ γ) :
    (t.andThen f).andThen g = t.andThen (fun a c b => (f a c b).andThen g) := by
  obtain ⟨stages, e | a, c, b⟩ := t
  · rfl
  · rcases hf : f a c b with ⟨others, e | a', c', b'⟩ <;> simp [andThen, hf]

theorem mem_andThen
    {t : Traced σ α} {next : α → Coordinator → Backing σ → Traced σ β} {stage : Stage σ} :
    stage ∈ (t.andThen next).1 ↔
      stage ∈ t.1 ∨ ∃ a c b, t.2 = (.ok a, c, b) ∧ stage ∈ (next a c b).1 := by
  obtain ⟨stages, e | a, c, b⟩ := t
  · simp [andThen]
  · simp [andThen]

theorem coordinator_andThen_done
    {t : Traced σ α} {answer : α → β} :
    (t.andThen (fun a c b => .done (answer a) c b)).2.2.1 = t.2.2.1 := by
  obtain ⟨stages, e | a, c, b⟩ := t <;> rfl

end Traced

section Stages

variable [Store σ] (ctx : Context)

/-- Append a request under a new number, with the stages of that. -/
def traceEntry (request : Request) (c : Coordinator) (b : Backing σ) : Traced σ Unit :=
  (Traced.stage .number c.numbered b).andThen (fun _ n b =>
    match request with
    | .record record => traceFile ctx record n b
    | .statement s =>
        .stage (.queue n.latest (.statement s)) (n.withStatement s) (noteStatement s n b))

/-- A request that is buffered is appended, and a flush follows if that was too much. -/
theorem traceQueue_eq (request : Request) (c : Coordinator) (b : Backing σ) :
    traceQueue ctx request c b =
      (traceEntry ctx request c b).andThen (fun _ queued b =>
        (traceFlushIf ctx (queued.threshold request ≤ queued.load request) queued b).andThen
          (fun _ last b => .done (.queued c.numbered.latest) last b)) := by
  cases request with
  | record record =>
      rw [traceEntry, Traced.andThen_assoc]
      rfl
  | statement s => rfl

variable {ctx} {request : Request} {c : Coordinator} {b : Backing σ}

theorem entered_of_ok {queued : Coordinator} {after : Backing σ}
    (h : (traceEntry ctx request c b).2 = (.ok (), queued, after)) :
    Entered ctx c request queued := by
  cases request with
  | statement s =>
      cases h
      exact .statement s
  | record record =>
      change (traceFile ctx record c.numbered b).2 = _ at h
      unfold traceFile at h
      rcases hget : c.numbered.window.get? record.root with _ | group
      · simp only [hget, tracePlaceGroup] at h
        rcases hplace : placement record.depth (ctx.registry.imported record.root)
          c.numbered.window c.numbered.maxDepth with depth | _
        · simp only [hplace] at h
          cases h
          exact .entrant record depth hget hplace
        · simp only [hplace] at h
          rcases settled_or_wiped ctx true c.numbered (noteForced record.root b) with
            ⟨totals, last, hflush⟩ | ⟨e, last, hflush⟩
          · simp only [traceFlush, Traced.stage, Traced.andThen, Traced.done, hflush] at h
            cases h
            exact .reset record totals ⟨hget, hplace⟩
          · simp only [traceFlush, Traced.stage, Traced.andThen, hflush] at h
            cases h
      · simp only [hget] at h
        cases h
        exact .member record group hget

theorem flush_mem_tracePlaceGroup_iff
    {root : RootType} {relative : Int} {reset : Bool} {d : Coordinator} {begun : Backing σ} :
    .flush reset d begun ∈ (tracePlaceGroup ctx root relative c b).1 ↔
      placement relative (ctx.registry.imported root) c.window c.maxDepth = .unknown ∧
        reset = true ∧ d = c ∧ begun = noteForced root b := by
  unfold tracePlaceGroup
  rcases placement relative (ctx.registry.imported root) c.window c.maxDepth with depth | _
  · simp [Traced.done]
  · simp [Traced.mem_andThen, Traced.stage, Traced.done, traceFlush]

theorem flush_mem_traceFile_iff
    {record : Record} {reset : Bool} {d : Coordinator} {begun : Backing σ} :
    .flush reset d begun ∈ (traceFile ctx record c b).1 ↔
      Forces ctx (.record record) c ∧ reset = true ∧ d = c ∧
        begun = noteForced record.root b := by
  unfold traceFile Forces
  rcases hget : c.window.get? record.root with _ | group
  · simp [Traced.mem_andThen, Traced.stage, flush_mem_tracePlaceGroup_iff, hget]
  · simp [Traced.stage, hget]

/-- The only flush while a request is appended is one that its place asks for. -/
theorem flush_mem_traceEntry_iff {reset : Bool} {d : Coordinator} {begun : Backing σ} :
    .flush reset d begun ∈ (traceEntry ctx request c b).1 ↔
      ∃ record, request = .record record ∧ Forces ctx (.record record) c ∧ reset = true ∧
        d = c.numbered ∧ begun = noteForced record.root b := by
  cases request with
  | statement s => simp [traceEntry, Traced.mem_andThen, Traced.stage]
  | record record =>
      have hsame : Forces ctx (.record record) c.numbered ↔ Forces ctx (.record record) c := Iff.rfl
      simp [traceEntry, Traced.mem_andThen, Traced.stage, flush_mem_traceFile_iff, hsame]

theorem readied_of_ok {rest : Coordinator} {after : Backing σ}
    (h : (traceFlushIf ctx (c.mixes request) c b).2 = (.ok (), rest, after)) :
    rest = c.readied ctx request b := by
  rw [readied, ← traceFlushIf_coordinator, h]

/-- The occasion of a flush while a request is buffered. -/
inductive Occasion (ctx : Context) (request : Request) (c : Coordinator) (b : Backing σ) :
    Bool → Coordinator → Prop
  | mixed : c.mixes request = true → Occasion ctx request c b false c
  | forced : Forces ctx request (c.readied ctx request b) →
      Occasion ctx request c b true (c.readied ctx request b).numbered
  /-- The request has been appended, and that was too much. -/
  | full {queued : Coordinator} : Entered ctx (c.readied ctx request b) request queued →
      queued.threshold request ≤ queued.load request → Occasion ctx request c b false queued

/-- Every flush while a request is buffered has an occasion. -/
theorem occasion_of_mem {reset : Bool} {d : Coordinator} {begun : Backing σ}
    (h : .flush reset d begun ∈ (traceSubmit ctx request true c b).1) :
    Occasion ctx request c b reset d := by
  by_cases hknown : request.Known ctx.registry
  · rw [traceSubmit_of_known hknown, Traced.mem_andThen] at h
    simp only [Bool.not_true, Bool.false_or, if_true] at h
    rcases h with h | ⟨_, rest, after, hok, h⟩
    · obtain ⟨hmixes, hflush⟩ := mem_traceFlushIf_iff.1 h
      cases hflush
      exact .mixed hmixes
    · obtain rfl := readied_of_ok hok
      rw [traceQueue_eq, Traced.mem_andThen] at h
      rcases h with h | ⟨_, queued, next, hqueued, h⟩
      · obtain ⟨record, rfl, hforces, rfl, rfl, -⟩ := flush_mem_traceEntry_iff.1 h
        exact .forced hforces
      · rw [mem_andThen_done] at h
        obtain ⟨hfull, hflush⟩ := mem_traceFlushIf_iff.1 h
        cases hflush
        exact .full (entered_of_ok hqueued) (of_decide_eq_true hfull)
  · obtain ⟨root, hrefused⟩ := traceSubmit_of_unknown hknown true c b
    rw [hrefused] at h
    cases h

/-- A request that has been buffered was appended, and every flush was made for which there was an
occasion. -/
theorem flushes_of_ok {outcome : Outcome}
    (h : (traceSubmit ctx request true c b).2.1 = .ok outcome) :
    ∃ queued begun, Entered ctx (c.readied ctx request b) request queued ∧
      (traceSubmit ctx request true c b).2.2.1 =
        (if queued.threshold request ≤ queued.load request then
          (queued.flushWith ctx false begun).2.1 else queued) ∧
      (c.mixes request = true → .flush false c b ∈ (traceSubmit ctx request true c b).1) ∧
      (Forces ctx request (c.readied ctx request b) → ∃ begun,
        .flush true (c.readied ctx request b).numbered begun ∈
          (traceSubmit ctx request true c b).1) ∧
      (queued.threshold request ≤ queued.load request →
        .flush false queued begun ∈ (traceSubmit ctx request true c b).1) := by
  have hknown : request.Known ctx.registry := by
    by_contra hnot
    obtain ⟨root, hrefused⟩ := traceSubmit_of_unknown hnot true c b
    rw [hrefused] at h
    cases h
  rw [traceSubmit_of_known hknown] at h ⊢
  simp only [Bool.not_true, Bool.false_or, if_true] at h ⊢
  obtain ⟨_, rest, after, hmixed, hqueue⟩ := Traced.ok_of_andThen h
  obtain rfl := readied_of_ok hmixed
  rw [traceQueue_eq] at hqueue
  obtain ⟨_, queued, begun, hentry, hflush⟩ := Traced.ok_of_andThen hqueue
  refine ⟨queued, begun, entered_of_ok hentry, ?_, ?_, ?_, ?_⟩
  · rw [Traced.andThen_snd, hmixed, Step.andThen, traceQueue_eq, Traced.andThen_snd, hentry,
      Step.andThen, Traced.coordinator_andThen_done, traceFlushIf_coordinator]
    simp only [decide_eq_true_eq]
  · intro hmixes
    exact Traced.mem_andThen.2 (Or.inl (mem_traceFlushIf_iff.2 ⟨hmixes, rfl⟩))
  · intro hforces
    obtain ⟨record, rfl⟩ : ∃ record, request = .record record := by
      cases request with
      | record record => exact ⟨record, rfl⟩
      | statement s => exact hforces.elim
    refine ⟨noteForced record.root after, Traced.mem_andThen.2 (Or.inr ⟨_, _, _, hmixed, ?_⟩)⟩
    rw [traceQueue_eq]
    exact Traced.mem_andThen.2
      (Or.inl (flush_mem_traceEntry_iff.2 ⟨record, rfl, hforces, rfl, rfl, rfl⟩))
  · intro hfull
    refine Traced.mem_andThen.2 (Or.inr ⟨_, _, _, hmixed, ?_⟩)
    rw [traceQueue_eq]
    refine Traced.mem_andThen.2 (Or.inr ⟨_, _, _, hentry, mem_andThen_done.2 ?_⟩)
    exact mem_traceFlushIf_iff.2 ⟨decide_eq_true hfull, rfl⟩

end Stages

/-! ## Calls of a request that is buffered -/

theorem isEmpty_of_calls_eq_nil
    {registry : Registry} {c : Coordinator} (h : c.Sendable registry)
    (hcalls : c.calls registry = []) : c.isEmpty = true := by
  obtain ⟨hstatements, hrecords⟩ := List.append_eq_nil_iff.1 hcalls
  rw [isEmpty, Bool.and_eq_true]
  refine ⟨List.isEmpty_iff.2 hstatements, List.all_eq_true.2 (fun group hmem => ?_)⟩
  have hparcels := h.plan.1.parcels
  rw [h.plan.2, hrecords, List.flatMap_nil] at hparcels
  have hnone := List.flatMap_eq_nil_iff.1 hparcels.symm group (mem_ordered_iff.2 hmem)
  have hlength := length_parcels_group registry (h.known group hmem)
  rw [hnone, List.length_nil] at hlength
  exact List.isEmpty_iff.2 (List.length_eq_zero_iff.1 hlength.symm)

section Calls

variable [Store σ] {ctx : Context} {request : Request} {c : Coordinator}

/-- A flush makes a call exactly if something waits. -/
theorem seen_flush_ne_nil_iff
    (h : c.Sendable ctx.registry) (reset : Bool) (b : Backing (Watched σ)) :
    (Stage.flush reset c b).seen ctx.registry ≠ [] ↔ c.isEmpty = false := by
  have hseen : (Stage.flush reset c b).seen ctx.registry =
      (attempted c.policy.fetchKeys (c.calls ctx.registry) b.store).map
        (Attempt.seen c.policy.fetchKeys) := rfl
  rw [hseen, Ne, List.map_eq_nil_iff, ← Bool.not_eq_true, not_iff_not]
  constructor
  · intro hnone
    apply isEmpty_of_calls_eq_nil h
    rcases hcalls : c.calls ctx.registry with _ | ⟨group, rest⟩
    · rfl
    · rw [hcalls, attempted] at hnone
      split at hnone <;> cases hnone
  · intro hempty
    rw [isEmpty, Bool.and_eq_true] at hempty
    rw [calls, groups_eq_nil_of_isEmpty hempty.1, calls_eq_nil_of_isDrained _ _ hempty.2]
    rfl

/-- Buffering a request makes a call exactly if a flush of it begins while something waits. -/
theorem seen_submit_ne_iff (hc : Reachable ctx c) (b : Backing (Watched σ)) :
    (perform ctx (.submit request true) c b).2.2.store.seen ≠ b.store.seen ↔
      ∃ reset d begun, .flush reset d begun ∈ (traceSubmit ctx request true c b).1 ∧
        d.isEmpty = false := by
  obtain ⟨n, hle, hwell⟩ := hc.wellFormed
  have hsendable : ∀ reset d begun, .flush reset d begun ∈ (traceSubmit ctx request true c b).1 →
      d.Sendable ctx.registry := by
    intro reset d begun hmem
    rw [← stages_submit] at hmem
    exact hc.flush_sendable hmem
  rw [(hwell.seen_perform hle (.submit request true) b).1, Act.seen, Act.of, stages_submit, Ne,
    List.append_right_eq_self, List.flatMap_eq_nil_iff]
  constructor
  · intro h
    push Not at h
    obtain ⟨stage, hmem, hne⟩ := h
    cases buffers_traceSubmit ctx request c b stage hmem with
    | flush reset d begun =>
        exact ⟨reset, d, begun, hmem,
          (seen_flush_ne_nil_iff (hsendable _ _ _ hmem) reset begun).1 hne⟩
    | number | queue | force => exact absurd rfl hne
  · rintro ⟨reset, d, begun, hmem, hsome⟩ hnone
    exact (seen_flush_ne_nil_iff (hsendable _ _ _ hmem) reset begun).2 hsome (hnone _ hmem)

theorem isEmpty_eq_false_of_mixes (h : c.mixes request = true) : c.isEmpty = false := by
  unfold mixes at h
  rw [isEmpty, Bool.and_eq_false_iff]
  cases request with
  | record record => simp_all
  | statement s => simp_all

/-- A request that has been buffered has led to a call exactly if something of the other kind waited,
if its place was unknown while something waited, or if appending it was too much. -/
theorem calls_of_ok
    (hc : Reachable ctx c) (b : Backing (Watched σ)) {outcome : Outcome}
    (h : (traceSubmit ctx request true c b).2.1 = .ok outcome) :
    (perform ctx (.submit request true) c b).2.2.store.seen ≠ b.store.seen ↔
      c.mixes request = true ∨ (Forces ctx request c ∧ c.isEmpty = false) ∨
        c.threshold request ≤ c.loadWith request := by
  rw [seen_submit_ne_iff hc]
  obtain ⟨queued, begun, hentered, -, hmixed, hforced, hfull⟩ := flushes_of_ok h
  by_cases hmixes : c.mixes request = true
  · exact iff_of_true ⟨_, _, _, hmixed hmixes, isEmpty_eq_false_of_mixes hmixes⟩ (Or.inl hmixes)
  -- Without a flush in the beginning the request is appended to the coordinator as it is.
  have hreadied : c.readied ctx request b = c := if_neg hmixes
  rw [hreadied] at hentered hforced
  by_cases hcleared : Forces ctx request c ∧ c.isEmpty = false
  · obtain ⟨start, hmem⟩ := hforced hcleared.1
    exact iff_of_true ⟨_, _, _, hmem, hcleared.2⟩ (Or.inr (Or.inl hcleared))
  have hkept : Forces ctx request c → c.isEmpty = true := by
    intro hforces
    rw [← Bool.not_eq_false]
    exact fun hsome => hcleared ⟨hforces, hsome⟩
  simp only [hmixes, hcleared, Bool.false_eq_true, false_or]
  rw [← hentered.load hc.marks hkept, ← hentered.threshold]
  constructor
  · rintro ⟨reset, d, start, hmem, hsome⟩
    cases occasion_of_mem hmem with
    | mixed hmixed => exact absurd hmixed hmixes
    | forced hforces =>
        rw [hreadied] at hforces hsome
        exact absurd ⟨hforces, hsome⟩ hcleared
    | full hfilled hle =>
        rw [hreadied] at hfilled
        rw [hentered.load hc.marks hkept, ← hfilled.load hc.marks hkept]
        rwa [hentered.threshold, ← hfilled.threshold]
  · intro hle
    exact ⟨_, _, _, hfull hle, hentered.isEmpty_eq_false⟩

/-- After a request has been buffered the load is below the threshold. -/
theorem load_lt_of_ok
    {b : Backing σ} {outcome : Outcome}
    (h : (traceSubmit ctx request true c b).2.1 = .ok outcome)
    (hpos : 1 ≤ (traceSubmit ctx request true c b).2.2.1.threshold request) :
    (traceSubmit ctx request true c b).2.2.1.load request <
      (traceSubmit ctx request true c b).2.2.1.threshold request := by
  obtain ⟨queued, begun, -, hlast, -⟩ := flushes_of_ok h
  rw [hlast] at hpos ⊢
  split
  · -- Nothing waits any more.
    next hfull =>
    rw [if_pos hfull] at hpos
    have hzero : (queued.flushWith ctx false begun).2.1.load request = 0 := by
      rw [coordinator_flushWith]
      split <;> cases request <;> rfl
    omega
  · next hroom => exact Nat.lt_of_not_le hroom

end Calls

/-! ## The law of thresholds -/

/-- A request has been buffered as the thresholds demand. -/
structure ObeysThresholds [Store σ] (ctx : Context) (request : Request) (c : Coordinator)
    (b : Backing (Watched σ)) (step : Step Coordinator (Watched σ) Reply) : Prop where
  /-- Behind a record write every group is smaller than the cap. -/
  records : ∀ record, request = .record record → 1 ≤ step.2.1.policy.cap →
    ∀ group ∈ step.2.1.window.values, group.size < step.2.1.policy.cap
  /-- Behind a statement fewer parameter sets than the batch size wait for each text. -/
  statements : ∀ s, request = .statement s → 1 ≤ step.2.1.policy.batchSize →
    ∀ group ∈ step.2.1.statements.groups, group.size < step.2.1.policy.batchSize
  /-- The store was called exactly if something of the other kind waited and must not wait beside the
  request, if its place was unknown while something waited, or if the largest group of its kind
  reaches the threshold with it. -/
  calls : step.2.2.store.seen ≠ b.store.seen ↔
    c.mixes request = true ∨ (Forces ctx request c ∧ c.isEmpty = false) ∨
      c.threshold request ≤ c.loadWith request

/-- At any time the high-water mark is the size of the largest group of records, and a request that is
buffered leaves no group at its threshold and makes no flush without an occasion. -/
theorem threshold_law {ctx : Context} {c : Coordinator} (hc : Reachable ctx c) :
    c.highWater = greatestOf (c.window.values.map RecordGroup.size) ∧
      ∀ {σ : Type} [Store σ] (request : Request) (b : Backing (Watched σ)) (reply : Reply),
        (perform ctx (.submit request true) c b).1 = .ok reply →
          ObeysThresholds ctx request c b (perform ctx (.submit request true) c b) := by
  refine ⟨hc.marks.highWater, ?_⟩
  intro σ _ request b reply hreply
  obtain ⟨outcome, hok⟩ := ok_of_submit hreply
  have hload := load_lt_of_ok hok
  rw [← perform_submit] at hload
  have hmarks := (hc.step (.submit request true) b).marks
  constructor
  case records =>
    rintro record rfl hpos group hmem
    refine Nat.lt_of_le_of_lt ?_ (hload hpos)
    rw [load, hmarks.highWater]
    exact le_greatestOf (List.mem_map_of_mem hmem)
  case statements =>
    rintro s rfl hpos group hmem
    exact Nat.lt_of_le_of_lt (le_greatestOf (List.mem_map_of_mem hmem)) (hload hpos)
  case calls => exact calls_of_ok hc b hok

def oneBelow : Coordinator × Backing (Watched Memory) :=
  (performAll (lettered []) [.submit (.statement ⟨"select 1", []⟩) true, .setBatchSize 2]
    (.new { batchSize := 3 }) untouched).2

theorem threshold_law_of_oneBelow :
    let step := perform (lettered []) (.submit (.statement ⟨"select  1", []⟩) true) oneBelow.1
      oneBelow.2
    oneBelow.1.highWater = greatestOf (oneBelow.1.window.values.map RecordGroup.size) ∧
      ObeysThresholds (lettered []) (.statement ⟨"select  1", []⟩) oneBelow.1 oneBelow.2 step ∧
      step.2.1.policy.batchSize = 2 ∧ step.2.2.store.seen ≠ oneBelow.2.store.seen := by
  have hreachable : Reachable (lettered []) oneBelow.1 :=
    (Reachable.new _).performAll _ untouched
  obtain ⟨hmark, hlaw⟩ := threshold_law hreachable
  exact ⟨hmark, hlaw _ _ (.outcome (.queued ⟨2⟩)) rfl, by decide, by decide⟩

end Coordinator

end Cascade
