import Cascade.Proofs.FailedFlush
import Cascade.Proofs.Pieces
import Cascade.Proofs.Refusals
import Cascade.Proofs.SubmissionOrder
import Cascade.Proofs.Thresholds

/-!
# The sizes of calls

No batch call holds more parameter sets than the batch size, and none is empty.
Statements and records obey this for different reasons.  A group of statements is
flushed as soon as it has grown to the batch size, and before that it is smaller;
this is an invariant between operations as long as the batch size is not lowered.
The writes of a group of records are cut when they are flushed.
-/

namespace Cascade

theorem greatestOf_place_le
    (text : String) (isInsert : Bool) (entry : Waiting) (groups : List StatementGroup) :
    greatestOf ((StatementBatch.place text isInsert entry groups).2.map StatementGroup.size) ≤
      greatestOf (groups.map StatementGroup.size) + 1 := by
  induction groups with
  | nil => exact Nat.le_refl 1
  | cons group rest ih =>
      by_cases htext : group.text = text
      · have hsize : (group.add entry).size = group.size + 1 := by
          simp [StatementGroup.size, StatementGroup.add]
        rw [StatementBatch.place, if_pos htext]
        simp only [List.map_cons, greatestOf, hsize]
        omega
      · rw [StatementBatch.place, if_neg htext]
        simp only [List.map_cons, greatestOf]
        omega

theorem StatementBatch.largest_append_le
    (statement : Statement) (origin : Option RequestId) (batch : StatementBatch) :
    (batch.append statement origin).2.largest ≤ batch.largest + 1 :=
  greatestOf_place_le _ _ _ _

namespace Coordinator

variable {σ : Type}

/-- Every group of statements is smaller than the batch size. -/
def Bounded (c : Coordinator) : Prop :=
  c.statements.largest < c.policy.batchSize

/-- The calls of a coordinator whose groups of statements have not outgrown the batch size are not
larger than that, and none of them is empty. -/
theorem size_of_mem_calls
    {registry : Registry} {c : Coordinator} (h : c.Sendable registry)
    (hpos : 1 ≤ c.policy.batchSize) (hle : c.statements.largest ≤ c.policy.batchSize) :
    ∀ call ∈ c.calls registry, 1 ≤ call.size ∧ call.size ≤ c.policy.batchSize := by
  intro call hmem
  refine ⟨List.length_pos_iff.2 (h.call_waiting call hmem), ?_⟩
  rcases List.mem_append.1 hmem with hmem | hmem
  · exact Nat.le_trans (le_greatestOf (List.mem_map_of_mem hmem)) hle
  · obtain ⟨group, hgroup, hcall⟩ := List.mem_flatMap.1 hmem
    have hknown := h.known group (mem_ordered_iff.1 hgroup)
    have hpiece : call.parcels ∈ cuts c.policy.batchSize (group.parcels registry) := by
      rw [← RecordGroup.parcels_calls _ hknown]
      exact List.mem_map_of_mem hcall
    have hsize := (length_of_mem_cuts hpiece).2
    rw [call.length_parcels] at hsize
    omega

section Operations

variable [Store σ] {ctx : Context} {c : Coordinator} {request : Request} {b : Backing σ}

theorem largest_of_isEmpty (h : c.isEmpty = true) : c.statements.largest = 0 := by
  rw [isEmpty, Bool.and_eq_true] at h
  rw [StatementBatch.largest, groups_eq_nil_of_isEmpty h.1]
  rfl

theorem largest_readied (ctx : Context) (request : Request) (c : Coordinator) (b : Backing σ) :
    (c.readied ctx request b).policy = c.policy ∧
      (c.readied ctx request b).statements.largest ≤ c.statements.largest := by
  unfold readied
  split
  · rw [largest_of_isEmpty (isEmpty_flushWith ctx false c b)]
    exact ⟨policy_flushWith ctx false c b, Nat.zero_le _⟩
  · exact ⟨rfl, Nat.le_refl _⟩

namespace Bounded

/-- The flushes of a request that is buffered begin with groups of statements that have not outgrown
the batch size. -/
theorem of_occasion (h : c.Bounded) {reset : Bool} {d : Coordinator}
    (hoccasion : Occasion ctx request c b reset d) :
    d.policy = c.policy ∧ d.statements.largest ≤ c.policy.batchSize := by
  obtain ⟨hpolicy, hlargest⟩ := largest_readied ctx request c b
  unfold Bounded at h
  cases hoccasion with
  | mixed => exact ⟨rfl, Nat.le_of_lt h⟩
  | forced => exact ⟨hpolicy, Nat.le_trans hlargest (Nat.le_of_lt h)⟩
  | full hentered =>
      refine ⟨hentered.policy.trans hpolicy, ?_⟩
      rcases hentered.statements with hsame | hnone | ⟨s, -, happended⟩
      · rw [hsame]
        omega
      · rw [hnone]
        exact Nat.zero_le _
      · have hgrown := StatementBatch.largest_append_le s
          (some (c.readied ctx request b).numbered.latest) (c.readied ctx request b).statements
        rw [happended]
        omega

/-- A flush of an operation begins with groups of statements that have not outgrown the batch
size. -/
theorem of_flush (h : c.Bounded) {operation : Operation} {begun : Backing σ} {reset : Bool}
    {d : Coordinator} (hmem : .flush reset d begun ∈ stages ctx operation c b) :
    d.policy = c.policy ∧ d.statements.largest ≤ c.policy.batchSize := by
  cases operation with
  | submit request batch =>
      rw [stages_submit] at hmem
      cases batch with
      | true => exact h.of_occasion (occasion_of_mem hmem)
      | false =>
          by_cases hknown : request.Known ctx.registry
          · rw [traceSubmit_of_known hknown, Traced.mem_andThen] at hmem
            rcases hmem with hmem | ⟨_, _, _, -, hmem⟩
            · obtain ⟨-, hflush⟩ := mem_traceFlushIf_iff.1 hmem
              cases hflush
              exact ⟨rfl, Nat.le_of_lt h⟩
            · cases List.mem_singleton.1 hmem
          · obtain ⟨root, hrefused⟩ := traceSubmit_of_unknown hknown false c b
            rw [hrefused] at hmem
            cases hmem
  | flush =>
      rw [stages_flush] at hmem
      cases List.mem_singleton.1 hmem
      exact ⟨rfl, Nat.le_of_lt h⟩
  | clear | setBatchSize | setFetchKeys | setFlushOnMixed | takeKeys =>
      cases List.mem_singleton.1 hmem

theorem of_isEmpty (hpos : 0 < c.policy.batchSize) (h : c.isEmpty = true) : c.Bounded := by
  rw [Bounded, largest_of_isEmpty h]
  exact hpos

theorem of_flushWith (hpos : 0 < c.policy.batchSize) (ctx : Context) (reset : Bool)
    (b : Backing σ) : (c.flushWith ctx reset b).2.1.Bounded :=
  .of_isEmpty (by rwa [policy_flushWith]) (isEmpty_flushWith ctx reset c b)

theorem of_record (h : c.Bounded) {record : Record} {outcome : Outcome}
    (hok : (traceSubmit ctx (.record record) true c b).2.1 = .ok outcome) :
    (traceSubmit ctx (.record record) true c b).2.2.1.Bounded := by
  have hpos : 0 < c.policy.batchSize := Nat.zero_lt_of_lt h
  obtain ⟨hpolicy, hlargest⟩ := largest_readied ctx (.record record) c b
  obtain ⟨queued, begun, hentered, hlast, -⟩ := flushes_of_ok hok
  have hsame : queued.policy = c.policy := hentered.policy.trans hpolicy
  rw [hlast]
  split
  · exact .of_flushWith (by rwa [hsame]) ctx false begun
  · rw [Bounded, hsame]
    refine Nat.lt_of_le_of_lt ?_ h
    rcases hentered.statements with hkept | hnone | ⟨s, hstatement, -⟩
    · rwa [hkept]
    · rw [hnone]
      exact Nat.zero_le _
    · cases hstatement

/-- A request that is to be buffered leaves every group of statements smaller than the batch size,
whether or not that succeeds. -/
theorem submit (h : c.Bounded) (hc : Reachable ctx c) (request : Request) (b : Backing σ) :
    (perform ctx (.submit request true) c b).2.1.Bounded := by
  have hpos : 0 < c.policy.batchSize := Nat.zero_lt_of_lt h
  have hpolicy : (perform ctx (.submit request true) c b).2.1.policy = c.policy :=
    policy_perform ctx rfl c b
  rcases hanswer : (perform ctx (.submit request true) c b).1 with e | reply
  · by_cases hknown : request.Known ctx.registry
    · exact .of_isEmpty (by rwa [hpolicy]) (hc.fails_of_queued hknown hanswer).2
    · obtain ⟨root, hrefused⟩ := perform_submit_of_unknown hknown true c b
      rw [hrefused]
      exact h
  · obtain ⟨outcome, hok⟩ := ok_of_submit hanswer
    rw [perform_submit] at hpolicy ⊢
    cases request with
    | record record => exact h.of_record hok
    | statement s =>
        refine load_lt_of_ok hok ?_
        rw [threshold, hpolicy]
        exact hpos

/-- Unless it lowers the batch size, an operation keeps every group of statements smaller than
that. -/
theorem perform (h : c.Bounded) (hc : Reachable ctx c) (operation : Operation)
    (hkeep : ∀ size, operation = .setBatchSize size → 1 < size → c.policy.batchSize ≤ size)
    (b : Backing σ) : (perform ctx operation c b).2.1.Bounded := by
  have hpos : 0 < c.policy.batchSize := Nat.zero_lt_of_lt h
  cases operation with
  | submit request batch =>
      cases batch with
      | true => exact h.submit hc request b
      | false =>
          by_cases hknown : request.Known ctx.registry
          · rw [coordinator_submit_now hknown]
            exact .of_flushWith hpos ctx false b
          · obtain ⟨root, hrefused⟩ := perform_submit_of_unknown hknown false c b
            rw [hrefused]
            exact h
  | flush reset =>
      rw [coordinator_flush]
      exact .of_flushWith hpos ctx reset b
  | clear => exact .of_isEmpty hpos rfl
  | setBatchSize size =>
      simp only [Coordinator.perform, setBatchSize]
      split
      · next hlt => exact Nat.lt_of_lt_of_le h (hkeep size rfl hlt)
      · exact h
  | setFetchKeys choice => cases choice <;> exact h
  | setFlushOnMixed | takeKeys => exact h

end Bounded

end Operations

/-! ## The batch size in force -/

/-- The batch size after an operation, given the one before; a size below two is ignored. -/
def Operation.batchSizeAfter (size : Nat) : Operation → Nat
  | .setBatchSize next => if 1 < next then next else size
  | _ => size

/-- The batch size after some operations: the one that was set last, and that of the policy if none
was set. -/
def batchSizeAfter (policy : Policy) (operations : List Operation) : Nat :=
  operations.foldl Operation.batchSizeAfter policy.batchSize

/-- None of some operations lowers the batch size. -/
def NeverLowered (policy : Policy) (operations : List Operation) : Prop :=
  ∀ count < operations.length, batchSizeAfter policy (operations.take count) ≤
    batchSizeAfter policy (operations.take (count + 1))

theorem batchSizeAfter_concat (policy : Policy) (operations : List Operation)
    (operation : Operation) :
    batchSizeAfter policy (operations ++ [operation]) =
      operation.batchSizeAfter (batchSizeAfter policy operations) := by
  simp [batchSizeAfter]

namespace NeverLowered

variable {policy : Policy}

theorem of_append {first second : List Operation} (h : NeverLowered policy (first ++ second)) :
    NeverLowered policy first := by
  intro count hlt
  have hcount := h count (by rw [List.length_append]; omega)
  rwa [List.take_append_of_le_length (by omega), List.take_append_of_le_length (by omega)] at hcount

theorem last {operations : List Operation} {operation : Operation}
    (h : NeverLowered policy (operations ++ [operation])) :
    batchSizeAfter policy operations ≤
      operation.batchSizeAfter (batchSizeAfter policy operations) := by
  have hlast := h operations.length (by simp)
  rwa [List.take_left, List.take_of_length_le (by simp), batchSizeAfter_concat] at hlast

end NeverLowered

theorem batchSize_perform [Store σ] (ctx : Context) (operation : Operation) (c : Coordinator)
    (b : Backing σ) :
    (perform ctx operation c b).2.1.policy.batchSize =
      operation.batchSizeAfter c.policy.batchSize := by
  cases operation with
  | submit | flush | clear => rw [policy_perform ctx rfl]; rfl
  | setBatchSize size =>
      simp only [perform, setBatchSize, Operation.batchSizeAfter]
      split <;> rfl
  | setFetchKeys choice => cases choice <;> rfl
  | setFlushOnMixed | takeKeys => rfl

/-! ## Runs -/

section Runs

variable [Store σ] {ctx : Context} {elsewhere : σ → σ → Prop} {policy : Policy}
  {acts : List (Act (Watched σ))} {c : Coordinator} {b : Backing (Watched σ)}

theorem Annals.reachable (h : Annals ctx elsewhere policy acts c b) : Reachable ctx c := by
  induction h with
  | new => exact .new policy
  | perform operation _ ih => exact .step operation _ ih
  | change _ _ _ _ ih => exact ih

theorem Annals.batchSize (h : Annals ctx elsewhere policy acts c b) :
    c.policy.batchSize = batchSizeAfter policy (acts.map Act.operation) := by
  induction h with
  | new => rfl
  | perform operation _ ih =>
      rw [batchSize_perform, ih, List.map_append, List.map_singleton, batchSizeAfter_concat]
      rfl
  | change _ _ _ _ ih => exact ih

/-- Between operations every group of statements is smaller than the batch size, as long as that is
never lowered. -/
theorem Annals.bounded (h : Annals ctx elsewhere policy acts c b) (hpos : 1 ≤ policy.batchSize)
    (hkept : NeverLowered policy (acts.map Act.operation)) : c.Bounded := by
  induction h with
  | new => exact .of_isEmpty hpos rfl
  | @perform acts c b operation hrun ih =>
      rw [List.map_append, List.map_singleton] at hkept
      refine (ih hkept.of_append).perform hrun.reachable operation ?_ b
      intro size heq hlt
      have hgrown := hkept.last
      rw [← hrun.batchSize, Act.of, heq] at hgrown
      simpa [Operation.batchSizeAfter, hlt] using hgrown
  | change _ _ _ _ ih => exact ih hkept

theorem exists_attempt
    {registry : Registry} {stages : List (Stage (Watched σ))} {sight : Seen}
    (hmem : sight ∈ stages.flatMap (Stage.seen registry)) {text : String}
    {sets : List (List Json.Datum)} {fetch : Bool} (hcall : sight.call = .batch text sets fetch) :
    ∃ attempt ∈ attempts registry stages,
      attempt.group.text = text ∧ attempt.group.paramSets = sets := by
  obtain ⟨stage, hstage, hsight⟩ := List.mem_flatMap.1 hmem
  cases stage with
  | flush reset d begun =>
      obtain ⟨attempt, hattempt, rfl⟩ := List.mem_map.1 hsight
      cases hcall
      exact ⟨attempt, List.mem_flatMap.2 ⟨_, hstage, hattempt⟩, rfl, rfl⟩
  | execute request fetch b =>
      simp only [Stage.seen, Request.seenNow] at hsight
      rcases hbind : request.bind registry with e | bound
      · simp [hbind] at hsight
      · rw [hbind, List.mem_singleton] at hsight
        subst hsight
        rcases hanswer : (Store.execute bound (fetch && bound.isInsert) b.store.behind).1 with
          e | answer
        all_goals
          rw [hanswer] at hcall
          cases hcall
  | number | queue | force | clear | adjust => cases hsight

/-- A batch call of an operation is neither empty nor larger than the batch size, and its text is a
normal form. -/
theorem Bounded.of_attempt (h : c.Bounded) (hc : Reachable ctx c) {operation : Operation}
    {attempt : Attempt} (hattempt : attempt ∈ attempts ctx.registry (stages ctx operation c b)) :
    (1 ≤ attempt.group.size ∧ attempt.group.size ≤ c.policy.batchSize) ∧
      normalText attempt.group.text = attempt.group.text := by
  obtain ⟨stage, hstage, hmade⟩ := List.mem_flatMap.1 hattempt
  cases stage with
  | flush reset d begun =>
      obtain ⟨hpolicy, hlargest⟩ := h.of_flush hstage
      rw [← hpolicy] at hlargest ⊢
      have hplanned : attempt.group ∈ d.calls ctx.registry := group_mem_of_attempted hmade
      have hpos : 1 ≤ d.policy.batchSize := by
        rw [hpolicy]
        exact Nat.zero_lt_of_lt h
      obtain ⟨before, after, ⟨n, -, hwell⟩, hmove⟩ := hc.stage hstage
      cases hmove
      refine ⟨size_of_mem_calls hwell.sendable hpos hlargest _ hplanned, ?_⟩
      obtain ⟨text, htext⟩ := hwell.normal_of_mem_calls hplanned
      rw [htext, normalText_normalText]
  | number | queue | force | execute | clear | adjust => cases hmade

/-- The statements of a batch call of a run are those that accepted requests bind to, in normal
form. -/
theorem Annals.accepted_of_attempt (h : Annals ctx elsewhere policy acts c b)
    {attempt : Attempt} (hattempt : attempt ∈ attempts ctx.registry (acts.flatMap Act.stages))
    {params : List Json.Datum} (hparams : params ∈ attempt.group.paramSets) :
    ∃ entry ∈ accepted (acts.flatMap Act.stages), ∃ bound,
      entry.2.bind ctx.registry = .ok bound ∧ bound.normal = ⟨attempt.group.text, params⟩ := by
  obtain ⟨given, htally⟩ := h.run.tally
  obtain ⟨waiting, hwaiting, rfl⟩ := List.mem_map.1 hparams
  have hparcel : ⟨waiting.origin, ⟨attempt.group.text, waiting.params⟩⟩ ∈ attempt.group.parcels :=
    List.mem_map_of_mem hwaiting
  have haccepted := htally.mem_acceptedParcels_of_sent hattempt hparcel
  obtain ⟨entry, hentry, hfound⟩ := List.mem_filterMap.1 haccepted
  obtain ⟨bound, hbound, hsame⟩ := Request.bind_of_parcel? hfound
  exact ⟨entry, hentry, bound, hbound, (congrArg Parcel.statement hsame).symm⟩

/-- The batch calls of a run are as the batch size demands. -/
structure CallsWithin [Store σ] (ctx : Context) (policy : Policy) (acts : List (Act (Watched σ)))
    (b : Backing (Watched σ)) : Prop where
  /-- The store has seen the calls of the acts, and no others. -/
  seen : b.store.seen = acts.flatMap (Act.seen ctx.registry)
  /-- A batch call holds a parameter set, and no more of them than the batch size that was in force
  when its act began. -/
  sizes : ∀ before act after, acts = before ++ act :: after →
    ∀ sight ∈ act.seen ctx.registry, ∀ text sets fetch, sight.call = .batch text sets fetch →
      1 ≤ sets.length ∧ sets.length ≤ batchSizeAfter policy (before.map Act.operation)
  /-- Its text is a normal form, and that of every statement in it: each parameter set belongs to a
  request that was accepted before. -/
  texts : ∀ before act after, acts = before ++ act :: after →
    ∀ sight ∈ act.seen ctx.registry, ∀ text sets fetch, sight.call = .batch text sets fetch →
      normalText text = text ∧
        ∀ params ∈ sets, ∃ entry ∈ accepted ((before ++ [act]).flatMap Act.stages), ∃ bound,
          entry.2.bind ctx.registry = .ok bound ∧ bound.normal = ⟨text, params⟩

/-- In a run whose batch size is positive and never lowered, no batch call is empty, and none is
larger than the batch size. -/
theorem calls_within_batch_size
    (h : Annals ctx elsewhere policy acts c b) (hpos : 1 ≤ policy.batchSize)
    (hkept : NeverLowered policy (acts.map Act.operation)) : CallsWithin ctx policy acts b := by
  have hbegun : ∀ before act after, acts = before ++ act :: after → ∃ operation d begun,
      Annals ctx elsewhere policy before d begun ∧ act = .of ctx operation d begun ∧ d.Bounded := by
    intro before act after hacts
    obtain ⟨operation, d, begun, hrun, hact⟩ := h.before hacts
    rw [hacts, List.map_append] at hkept
    exact ⟨operation, d, begun, hrun, hact, hrun.bounded hpos hkept.of_append⟩
  constructor
  case seen => exact h.seen
  case sizes =>
    intro before act after hacts sight hsight text sets fetch hcall
    obtain ⟨attempt, hmade, rfl, rfl⟩ := exists_attempt hsight hcall
    obtain ⟨operation, d, begun, hrun, rfl, hbounded⟩ := hbegun before act after hacts
    rw [Memory.length_paramSets, ← hrun.batchSize]
    exact (hbounded.of_attempt hrun.reachable hmade).1
  case texts =>
    intro before act after hacts sight hsight text sets fetch hcall
    obtain ⟨attempt, hmade, rfl, rfl⟩ := exists_attempt hsight hcall
    obtain ⟨operation, d, begun, hrun, rfl, hbounded⟩ := hbegun before act after hacts
    refine ⟨(hbounded.of_attempt hrun.reachable hmade).2, fun params hparams => ?_⟩
    refine (hrun.perform operation).accepted_of_attempt ?_ hparams
    rw [List.flatMap_append, List.flatMap_singleton, attempts, List.flatMap_append]
    exact List.mem_append_right _ hmade

end Runs

/-- Three statements of one text are submitted with a batch size of two, which is raised before four
records are flushed. -/
def raising : List Operation :=
  [.submit (.statement ⟨"select 1", []⟩) true, .submit (.statement ⟨"select  1", []⟩) true,
    .submit (.statement ⟨"select 1", []⟩) true, .setBatchSize 3,
    .submit (.record (insertion "a" 0)) true, .submit (.record (insertion "a" 0)) true,
    .submit (.record (insertion "a" 0)) true, .submit (.record (insertion "a" 0)) true,
    .flush false]

def raised : List (Act (Watched Memory)) × Coordinator × Backing (Watched Memory) :=
  performActs (lettered []) raising (.new { batchSize := 2 }) untouched

theorem calls_within_batch_size_of_raised :
    NeverLowered { batchSize := 2 } (raised.1.map Act.operation) ∧
      CallsWithin (lettered []) { batchSize := 2 } raised.1 raised.2.2 ∧
      raised.2.2.store.seen.map (fun sight => (sight.call.text, sight.call.setCount?)) =
        [("select 1", some 2), ("select 1", some 1), ("insert into a () values ()", some 3),
          ("insert into a () values ()", some 1)] := by
  have hnew : Annals (lettered []) (fun _ _ => False) { batchSize := 2 } []
      (.new { batchSize := 2 }) untouched := .new untouched rfl
  have hkept : NeverLowered { batchSize := 2 } (raised.1.map Act.operation) := by
    rw [raised, operations_performActs]
    unfold NeverLowered
    decide
  exact ⟨hkept, calls_within_batch_size (hnew.performActs raising) (by decide) hkept, by decide⟩

end Coordinator

end Cascade
