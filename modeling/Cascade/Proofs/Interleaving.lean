import Cascade.Proofs.Likeness
import Cascade.Proofs.Marks
import Cascade.Proofs.Deliveries
import Cascade.Proofs.Precedence

/-!
# Interleaving writes of different root types

A group takes the writes of its own root type only, and a write of another one
leaves it as it is.  So as long as no group is opened and none is full, it does
not matter in which order writes of different root types come, nor at which
cascade depths: each group gets its own sequence, at the place where it was.
-/

namespace Cascade

/-- The writes of one root type among some, in order and without their cascade depths. -/
def sequenceOf (root : RootType) (records : List Record) : List Record :=
  (records.filter (fun record => root = record.root)).map (Record.withDepth 0)

theorem sequenceOf_cons (root : RootType) (record : Record) (rest : List Record) :
    sequenceOf root (record :: rest) =
      if root = record.root then record.withDepth 0 :: sequenceOf root rest
      else sequenceOf root rest := by
  unfold sequenceOf
  split <;> next hroot => simp [hroot]

/-! ## What a group takes -/

namespace RecordGroup

/-- A plain group with a write that may be of its root type. -/
def receive (group : RecordGroup) (record : Record) : RecordGroup :=
  if group.root = record.root then group.append ⟨0⟩ (record.withDepth 0) else group

/-- A group takes its own sequence of some writes, and nothing else of them. -/
theorem foldl_receive (records : List Record) (group : RecordGroup) :
    records.foldl receive group =
      { group with
        pending := group.pending ++ (sequenceOf group.root records).map (Prod.mk ⟨0⟩) } := by
  induction records generalizing group with
  | nil => simp [sequenceOf]
  | cons record rest ih =>
      rw [List.foldl_cons, ih]
      by_cases hroot : group.root = record.root <;> simp [receive, append, sequenceOf_cons, hroot]

end RecordGroup

theorem Window.drained_insert_append
    {window : Window} {root : RootType} {group : RecordGroup}
    (hget : window.get? root = some group) (id : RequestId) (record : Record) :
    Window.drained (window.insert root (group.append id record)) = window.drained := by
  obtain ⟨front, back, hentries, hinsert⟩ := Assoc.insert_of_get?_eq_some window.ascending hget
  apply Dictionary.ext
  simp only [Window.drained, Dictionary.mapValues, Dictionary.insert]
  rw [hinsert, hentries, List.map_append, List.map_append]
  rfl

/-- A write that is put into its group is received there, and it is not received elsewhere. -/
theorem Window.plain_insert_append
    {window : Window} {record : Record} {group : RecordGroup}
    (hroots : (window.values.map RecordGroup.root).Nodup)
    (hget : window.get? record.root = some group) (hown : group.root = record.root)
    (id : RequestId) :
    (window.insert record.root (group.append id record)).values.map RecordGroup.plain =
      (window.values.map RecordGroup.plain).map (fun other => other.receive record) := by
  obtain ⟨front, back, hvalues, hinsert⟩ := Dictionary.values_insert_of_get?_eq_some hget
  have hplain : (group.append id record).plain = group.plain.append ⟨0⟩ (record.withDepth 0) := by
    simp [RecordGroup.plain, RecordGroup.append, plainWrite]
  have hnodup : ((front.map RecordGroup.plain ++ group.plain :: back.map RecordGroup.plain).map
      RecordGroup.root).Nodup := by
    rw [hvalues] at hroots
    simpa [Function.comp_def, RecordGroup.plain] using hroots
  have hreceive := RecordGroup.map_of_nodup hnodup
    (fun other => other.append ⟨0⟩ (record.withDepth 0))
  have hroot : group.plain.root = record.root := hown
  rw [hroot] at hreceive
  rw [hinsert, hvalues, List.map_append, List.map_cons, List.map_append, List.map_cons, hplain]
  exact hreceive.symm

namespace Coordinator

variable {σ : Type}

/-! ## Submitting writes that have a group -/

/-- Where no statement waits and the group of a write has room, the write is put into the group and
nothing else happens. -/
theorem perform_member [Store σ]
    {ctx : Context} {record : Record} {c : Coordinator} {group : RecordGroup}
    (hknown : ctx.registry.contains record.root) (hstatements : c.statements.isEmpty)
    (hget : c.window.get? record.root = some group)
    (hroom : max c.highWater (group.size + 1) < c.policy.cap) (b : Backing σ) :
    perform ctx (.submit (.record record) true) c b =
      (.ok (.outcome (.queued c.numbered.latest)), c.numbered.withRecord record group,
        noteRecord record group c.numbered b) := by
  have hfull : ¬(c.numbered.withRecord record group).policy.cap ≤
      (c.numbered.withRecord record group).highWater := by
    rw [withRecord, RecordGroup.size_append]
    exact Nat.not_le.2 hroom
  have hget' : c.numbered.window.get? record.root = some group := hget
  have hqueue : traceQueueRecord ctx record c b =
      ([.number, .queue c.numbered.latest (.record record)],
        (.ok (.queued c.numbered.latest), c.numbered.withRecord record group,
          noteRecord record group c.numbered b)) := by
    simp [traceQueueRecord, traceFile, traceFlushIf, Traced.andThen, Traced.stage, Traced.done,
      hget', hfull]
  rw [← trace_snd]
  simp [trace, traceSubmit, traceSubmitRecord, traceFlushIf, Traced.andThen, Traced.done, hknown,
    hstatements, hqueue]

def submissions (records : List Record) : List Operation :=
  records.map (fun record => .submit (.record record) true)

theorem submissions_cons (record : Record) (rest : List Record) :
    submissions (record :: rest) = .submit (.record record) true :: submissions rest :=
  rfl

/-- A coordinator that takes some writes without a flush: no statement waits, every write has a
group, and no group reaches the cap. -/
structure Accommodates (ctx : Context) (records : List Record) (c : Coordinator) : Prop where
  reachable : Reachable ctx c
  statements : c.statements.isEmpty
  groups : ∀ record ∈ records, (c.window.get? record.root).isSome
  room : ∀ group ∈ c.window.values,
    group.size + (sequenceOf group.root records).length < c.policy.cap

/-- What has become of a coordinator and its backing while writes were submitted: each was buffered,
no call was made, every group is where it was, and it has received its writes. -/
structure Accommodated (records : List Record) (c : Coordinator) (b : Backing σ)
    (acts : List (Act σ)) (last : Coordinator) (after : Backing σ) : Prop where
  queued : ∀ act ∈ acts, ∃ id, act.answer = .ok (.outcome (.queued id))
  store : after.store = b.store
  policy : last.policy = c.policy
  statements : last.statements = c.statements
  places : last.window.drained = c.window.drained
  maxDepth : last.maxDepth = c.maxDepth
  received : last.window.values.map RecordGroup.plain =
    (c.window.values.map RecordGroup.plain).map
      (fun group => records.foldl RecordGroup.receive group)

section Runs

variable [Store σ] {ctx : Context} {c : Coordinator} {record : Record} {rest : List Record}

theorem Accommodates.room_step
    (h : Accommodates ctx (record :: rest) c) {group : RecordGroup}
    (hget : c.window.get? record.root = some group) (hown : group.root = record.root)
    (id : RequestId) :
    ∀ other ∈ (c.window.insert record.root (group.append id record)).values,
      other.size + (sequenceOf other.root rest).length < c.policy.cap := by
  obtain ⟨front, back, hvalues, hinsert⟩ := Dictionary.values_insert_of_get?_eq_some hget
  have hkept : ∀ other ∈ c.window.values,
      other.size + (sequenceOf other.root rest).length < c.policy.cap := by
    intro other hmem
    have hother := h.room other hmem
    rw [sequenceOf_cons] at hother
    split at hother
    · rw [List.length_cons] at hother
      omega
    · exact hother
  intro other hmem
  rw [hinsert] at hmem
  rcases List.mem_append.1 hmem with hmem | hmem
  · exact hkept other (by simp [hvalues, hmem])
  · rcases List.mem_cons.1 hmem with rfl | hmem
    · have hgroup := h.room group (by simp [hvalues])
      rw [sequenceOf_cons, if_pos hown, List.length_cons] at hgroup
      rw [RecordGroup.size_append]
      exact Nat.lt_of_le_of_lt (Nat.le_of_eq (Nat.succ_add_eq_add_succ _ _)) hgroup
    · exact hkept other (by simp [hvalues, hmem])

/-- The first of the writes is buffered, and the coordinator takes the others after it. -/
theorem Accommodates.step (h : Accommodates ctx (record :: rest) c) (b : Backing σ) :
    ∃ group, c.window.get? record.root = some group ∧ group.root = record.root ∧
      perform ctx (.submit (.record record) true) c b =
        (.ok (.outcome (.queued c.numbered.latest)), c.numbered.withRecord record group,
          noteRecord record group c.numbered b) ∧
      Accommodates ctx rest (c.numbered.withRecord record group) := by
  obtain ⟨n, -, hwell⟩ := h.reachable.wellFormed
  obtain ⟨group, hget⟩ := Option.isSome_iff_exists.1 (h.groups record List.mem_cons_self)
  have hsound : group.Sound ctx.registry n record.root :=
    hwell.sound _ (Assoc.mem_of_get?_eq_some hget)
  have hgroup : group.size + 1 < c.policy.cap := by
    have hroom := h.room group (Dictionary.mem_values_of_get?_eq_some hget)
    rw [sequenceOf_cons, if_pos hsound.own, List.length_cons] at hroom
    omega
  have hlargest : c.highWater < c.policy.cap := by
    rw [h.reachable.marks.highWater]
    apply greatestOf_lt (by omega)
    intro size hmem
    obtain ⟨other, hother, rfl⟩ := List.mem_map.1 hmem
    have hroom := h.room other hother
    omega
  have hperform :=
    perform_member hsound.known h.statements hget (Nat.max_lt.2 ⟨hlargest, hgroup⟩) b
  refine ⟨group, hget, hsound.own, hperform, ?_, h.statements, ?_, h.room_step hget hsound.own _⟩
  · have hnext := h.reachable.step (.submit (.record record) true) b
    rwa [hperform] at hnext
  · intro other hmem
    rw [get?_withRecord]
    split
    · rfl
    · exact h.groups other (List.mem_cons_of_mem _ hmem)

variable {records : List Record}

theorem Accommodates.run (h : Accommodates ctx records c) (b : Backing σ) :
    Accommodated records c b (performActs ctx (submissions records) c b).1
      (performActs ctx (submissions records) c b).2.1
      (performActs ctx (submissions records) c b).2.2 := by
  induction records generalizing c b with
  | nil =>
      exact ⟨List.forall_mem_nil _, rfl, rfl, rfl, rfl, rfl, (List.map_id' _).symm⟩
  | cons record rest ih =>
      obtain ⟨group, hget, hown, hperform, hnext⟩ := h.step b
      obtain ⟨n, -, hwell⟩ := h.reachable.wellFormed
      have hrest := ih hnext (noteRecord record group c.numbered b)
      rw [submissions_cons, performActs, hperform]
      refine ⟨?_, hrest.store, hrest.policy, hrest.statements, ?_, hrest.maxDepth, ?_⟩
      · intro act hmem
        rcases List.mem_cons.1 hmem with rfl | hmem
        · exact ⟨c.numbered.latest, congrArg Prod.fst hperform⟩
        · exact hrest.queued act hmem
      · rw [hrest.places]
        exact Window.drained_insert_append hget _ _
      · rw [hrest.received]
        have hplain := Window.plain_insert_append hwell.nodup_roots hget hown c.numbered.latest
        change ((c.window.insert _ _).values.map _).map _ = _
        rw [hplain, List.map_map]
        rfl

end Runs

/-- Writes of types that have a group are submitted, to groups of which none becomes full and while
no statement waits.  Two lists of them in which every type has the same writes in the same order,
cascade depths aside, lead to the same: no call is made while they are submitted, all groups stay
where they are, and a flush behind them executes the same calls in the same order, with the same
outcome and the same groups afterwards. -/
theorem interleaving_is_immaterial [Store σ]
    {ctx : Context} {c : Coordinator} (hc : Reachable ctx c) (hstatements : c.statements.isEmpty)
    {first second : List Record} (hgroups : ∀ record ∈ first, (c.window.get? record.root).isSome)
    (hsame : ∀ root, sequenceOf root first = sequenceOf root second)
    (hroom : ∀ group ∈ c.window.values,
      group.size + (sequenceOf group.root first).length < c.policy.cap)
    (b : Backing σ) (reset : Bool) :
    let one := performActs ctx (submissions first) c b
    let two := performActs ctx (submissions second) c b
    Accommodated first c b one.1 one.2.1 one.2.2 ∧ Accommodated second c b two.1 two.2.1 two.2.2 ∧
      FlushedAlike (one.2.1.flushWith ctx reset one.2.2) (two.2.1.flushWith ctx reset two.2.2) := by
  intro one two
  have hfirst : Accommodates ctx first c := ⟨hc, hstatements, hgroups, hroom⟩
  have hsecond : Accommodates ctx second c := by
    refine ⟨hc, hstatements, ?_, fun group hmem => hsame group.root ▸ hroom group hmem⟩
    intro record hmem
    have hin : record.withDepth 0 ∈ sequenceOf record.root second :=
      List.mem_map_of_mem (List.mem_filter.2 ⟨hmem, by simp⟩)
    rw [← hsame] at hin
    obtain ⟨other, hother, -⟩ := List.mem_map.1 hin
    obtain ⟨hother, hroot⟩ := List.mem_filter.1 hother
    rw [of_decide_eq_true hroot]
    exact hgroups other hother
  have hone := hfirst.run b
  have htwo := hsecond.run b
  refine ⟨hone, htwo, ?_⟩
  obtain ⟨k, -, hwell⟩ := (hc.performActs (submissions first) b).wellFormed
  obtain ⟨l, -, hother⟩ := (hc.performActs (submissions second) b).wellFormed
  have halike : one.2.1.Alike two.2.1 := by
    refine ⟨hone.policy.trans htwo.policy.symm, ?_, ?_, hone.places.trans htwo.places.symm,
      hone.maxDepth.trans htwo.maxDepth.symm⟩
    · rw [hone.statements, htwo.statements]
    · rw [hone.received, htwo.received]
      simp only [RecordGroup.foldl_receive, hsame]
  exact halike.flushWith hwell.sendable hother.sendable reset (hone.store.trans htwo.store.symm)

def alternating : List Record :=
  [insertion "a" 0, insertion "b" 0, (insertion "a" 0).withId (.ofNat 7), insertion "c" 0]

/-- The same writes, grouped by type and at other cascade depths. -/
def rearranged : List Record :=
  [insertion "c" 2, insertion "a" 1, (insertion "a" (-1)).withId (.ofNat 7), insertion "b" 0]

theorem interleaving_is_immaterial_of_rearranged :
    let one := performActs (lettered []) (submissions alternating) (threeOpened []).2.1 untouched
    let two := performActs (lettered []) (submissions rearranged) (threeOpened []).2.1 untouched
    FlushedAlike (one.2.1.flushWith (lettered []) false one.2.2)
        (two.2.1.flushWith (lettered []) false two.2.2) ∧
      (two.2.1.flushWith (lettered []) false two.2.2).2.2.store.behind.executed.map Executed.text =
        ["insert into a () values ()", "insert into a () values ()",
          "insert into a (id) values (?)", "insert into b () values ()",
          "insert into b () values ()", "insert into c () values ()",
          "insert into c () values ()"] := by
  have hsame : ∀ root, sequenceOf root alternating = sequenceOf root rearranged := by
    intro root
    by_cases hroot : root ∈ [⟨"a"⟩, ⟨"b"⟩, ⟨"c"⟩]
    · have hall : ∀ known ∈ [(⟨"a"⟩ : RootType), ⟨"b"⟩, ⟨"c"⟩],
          sequenceOf known alternating = sequenceOf known rearranged := by
        decide
      exact hall root hroot
    · simp_all [sequenceOf, alternating, rearranged, insertion, Record.withId, Record.withDepth,
        Record.new]
  obtain ⟨-, -, halike⟩ := interleaving_is_immaterial (reachable_threeOpened []) rfl
    (by decide) hsame (by decide) untouched false
  exact ⟨halike, by decide⟩

end Coordinator

end Cascade
