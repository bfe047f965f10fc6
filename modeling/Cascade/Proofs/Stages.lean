import Cascade.Proofs.Flushes
import Cascade.Coordinator.Submit
import Cascade.Store.Memory

/-!
# Operations and their stages

An operation on a coordinator consists of stages: flushes, requests that are
put into a buffer, requests that are executed at once, and changes that touch
no buffer.  A traced operation lists its stages beside its result, and
`trace_snd` says that nothing else is changed by listing them.

The last section performs several operations in turn.
-/

namespace Cascade.Coordinator

open Journal

variable {σ α β : Type}

/-! ## Operations -/

inductive Operation where
  | submit (request : Request) (batch : Bool)
  | flush (reset : Bool)
  | clear
  | setBatchSize (size : Nat)
  | setFetchKeys (choice : Option Bool)
  | setFlushOnMixed (flush : Bool)
  | takeKeys

inductive Reply where
  | outcome (outcome : Outcome)
  | totals (totals : Totals)
  | keys (keys : GeneratedKeys)
  | done

def perform [Store σ] (ctx : Context) (operation : Operation) (c : Coordinator) (b : Backing σ) :
    Step Coordinator σ Reply :=
  match operation with
  | .submit request batch =>
      (c.submit ctx request batch b).andThen (fun outcome c b => (.ok (.outcome outcome), c, b))
  | .flush reset =>
      (c.flushWith ctx reset b).andThen (fun totals c b => (.ok (.totals totals), c, b))
  | .clear => (.ok .done, c.clear ctx b)
  | .setBatchSize size => (.ok .done, c.setBatchSize size, b)
  | .setFetchKeys choice => (.ok .done, c.setFetchKeys choice, b)
  | .setFlushOnMixed flush => (.ok .done, c.setFlushOnMixed flush, b)
  | .takeKeys => (.ok (.keys c.takeKeys.1), c.takeKeys.2, b)

/-- The coordinators that operations lead to from a new one.  Between two operations the backing
may change in any way. -/
inductive Reachable (ctx : Context) : Coordinator → Prop
  | new (policy : Policy) : Reachable ctx (.new policy)
  | step {c : Coordinator} {σ : Type} [Store σ] (operation : Operation) (b : Backing σ) :
      Reachable ctx c → Reachable ctx (perform ctx operation c b).2.1

/-! ## Stages -/

inductive Stage (σ : Type) where
  | flush (reset : Bool) (c : Coordinator) (b : Backing σ)
  | number
  | queue (id : RequestId) (request : Request)
  /-- The place of a root type is found to be unknown. -/
  | force (root : RootType)
  | execute (request : Request) (fetch : Bool) (b : Backing σ)
  /-- Everything that waits is dropped. -/
  | clear (c : Coordinator)
  /-- The policy is changed, or keys are handed over. -/
  | adjust

/-- A step with the stages that led to it. -/
abbrev Traced (σ α : Type) := List (Stage σ) × Step Coordinator σ α

namespace Traced

/-- The stages of a step and, if it succeeds, those of what follows. -/
def andThen (traced : Traced σ α) (next : α → Coordinator → Backing σ → Traced σ β) :
    Traced σ β :=
  match traced with
  | (stages, (.ok a, c, b)) => (stages ++ (next a c b).1, (next a c b).2)
  | (stages, (.error e, c, b)) => (stages, (.error e, c, b))

def done (a : α) (c : Coordinator) (b : Backing σ) : Traced σ α :=
  ([], (.ok a, c, b))

/-- One stage that leads to a coordinator and a backing. -/
def stage (stage : Stage σ) (c : Coordinator) (b : Backing σ) : Traced σ Unit :=
  ([stage], (.ok (), c, b))

theorem andThen_snd (traced : Traced σ α) (next : α → Coordinator → Backing σ → Traced σ β) :
    (traced.andThen next).2 = Step.andThen traced.2 (fun a c b => (next a c b).2) := by
  obtain ⟨stages, e | a, c, b⟩ := traced <;> rfl

end Traced

def numbered (c : Coordinator) : Coordinator :=
  { c with requests := c.requests + 1 }

def latest (c : Coordinator) : RequestId :=
  ⟨c.requests⟩

def withStatement (statement : Statement) (c : Coordinator) : Coordinator :=
  { c with statements := (c.statements.append statement (some c.latest)).2 }

/-- The coordinator with a record write added to a group under the latest number. -/
def withRecord (record : Record) (group : RecordGroup) (c : Coordinator) : Coordinator :=
  { c with
    window := c.window.insert record.root (group.append c.latest record)
    highWater := max c.highWater (group.append c.latest record).size }

/-- The root type of a buffered write has the group that it was added to, and every other one has the
group that it had. -/
theorem get?_withRecord
    (record : Record) (group : RecordGroup) (c : Coordinator) (root : RootType) :
    (c.withRecord record group).window.get? root =
      if record.root = root then some (group.append c.latest record) else c.window.get? root :=
  Dictionary.get?_insert record.root root _ c.window

def withOpened (depth : Int) (c : Coordinator) : Coordinator :=
  { c with maxDepth := max c.maxDepth depth, opened := c.opened + 1 }

def noteRecord (record : Record) (group : RecordGroup) (c : Coordinator) (b : Backing σ) :
    Backing σ :=
  noteQueued (.recordQueued record.kind.name record.root.name
    (group.append c.latest record).size) b

def noteStatement (statement : Statement) (c : Coordinator) (b : Backing σ) : Backing σ :=
  noteQueued (.statementQueued (c.statements.append statement (some c.latest)).1) b

def noteForced (root : RootType) (b : Backing σ) : Backing σ :=
  (b.count Metrics.countForcedReset).note (.resetForced root.name)

section Traces

variable [Store σ] (ctx : Context)

def traceFlush (reset : Bool) (c : Coordinator) (b : Backing σ) : Traced σ Totals :=
  ([.flush reset c b], c.flushWith ctx reset b)

def traceFlushIf (condition : Bool) (c : Coordinator) (b : Backing σ) : Traced σ Unit :=
  if condition then (traceFlush ctx false c b).andThen (fun _ c b => .done () c b)
  else .done () c b

def traceExecute (request : Request) (c : Coordinator) (b : Backing σ) : Traced σ Outcome :=
  ([.execute request c.policy.fetchKeys b], c.executeNow ctx request b)

def traceQueueStatement (statement : Statement) (c : Coordinator) (b : Backing σ) :
    Traced σ Outcome :=
  (Traced.stage .number c.numbered b).andThen (fun _ n b =>
    (Traced.stage (.queue n.latest (.statement statement)) (n.withStatement statement)
      (noteStatement statement n b)).andThen (fun _ queued b =>
        (traceFlushIf ctx (queued.policy.batchSize ≤ queued.statements.largest) queued b).andThen
          (fun _ c b => .done (.queued n.latest) c b)))

def traceSubmitStatement (statement : Statement) (batch : Bool) (c : Coordinator)
    (b : Backing σ) : Traced σ Outcome :=
  (traceFlushIf ctx (!batch || (c.policy.flushOnMixed && !c.window.isDrained)) c b).andThen
    (fun _ c b =>
      if batch then traceQueueStatement ctx statement c b
      else traceExecute ctx (.statement statement) c b)

def tracePlaceGroup (root : RootType) (relative : Int) (c : Coordinator) (b : Backing σ) :
    Traced σ Int :=
  match placement relative (ctx.registry.imported root) c.window c.maxDepth with
  | .depth depth => .done depth c b
  | .unknown =>
      (Traced.stage (.force root) c (noteForced root b)).andThen (fun _ c b =>
        (traceFlush ctx true c b).andThen (fun _ c b => .done (baseDepth + relative) c b))

def traceFile (record : Record) (c : Coordinator) (b : Backing σ) : Traced σ Unit :=
  match c.window.get? record.root with
  | some group =>
      .stage (.queue c.latest (.record record)) (c.withRecord record group)
        (noteRecord record group c b)
  | none =>
      (tracePlaceGroup ctx record.root record.depth c b).andThen (fun depth c b =>
        let group := RecordGroup.new record.root depth c.opened
        .stage (.queue c.latest (.record record)) ((c.withOpened depth).withRecord record group)
          (noteRecord record group c b))

def traceQueueRecord (record : Record) (c : Coordinator) (b : Backing σ) : Traced σ Outcome :=
  (Traced.stage .number c.numbered b).andThen (fun _ n b =>
    (traceFile ctx record n b).andThen (fun _ queued b =>
      (traceFlushIf ctx (queued.policy.cap ≤ queued.highWater) queued b).andThen
        (fun _ c b => .done (.queued n.latest) c b)))

def traceSubmitRecord (record : Record) (batch : Bool) (c : Coordinator) (b : Backing σ) :
    Traced σ Outcome :=
  if ctx.registry.contains record.root then
    (traceFlushIf ctx (!batch || (c.policy.flushOnMixed && !c.statements.isEmpty)) c b).andThen
      (fun _ c b =>
        if batch then traceQueueRecord ctx record c b
        else traceExecute ctx (.record record) c b)
  else ([], (.error (.unknownRoot record.root), c, b))

def traceSubmit (request : Request) (batch : Bool) (c : Coordinator) (b : Backing σ) :
    Traced σ Outcome :=
  match request with
  | .record r => traceSubmitRecord ctx r batch c b
  | .statement s => traceSubmitStatement ctx s batch c b

def trace (operation : Operation) (c : Coordinator) (b : Backing σ) : Traced σ Reply :=
  match operation with
  | .submit request batch =>
      (traceSubmit ctx request batch c b).andThen (fun outcome c b => .done (.outcome outcome) c b)
  | .flush reset =>
      (traceFlush ctx reset c b).andThen (fun totals c b => .done (.totals totals) c b)
  | .clear => ([.clear c], perform ctx .clear c b)
  | operation => ([.adjust], perform ctx operation c b)

/-- The stages of an operation, in order. -/
def stages (operation : Operation) (c : Coordinator) (b : Backing σ) : List (Stage σ) :=
  (trace ctx operation c b).1

/-! ### A traced operation is the operation -/

theorem traceFlushIf_snd (condition : Bool) (c : Coordinator) (b : Backing σ) :
    (traceFlushIf ctx condition c b).2 = c.flushIf condition ctx b := by
  unfold traceFlushIf flushIf
  cases condition
  · rfl
  · exact Traced.andThen_snd _ _

theorem traceQueueStatement_snd (statement : Statement) (c : Coordinator) (b : Backing σ) :
    (traceQueueStatement ctx statement c b).2 = c.queueStatement ctx statement b := by
  unfold traceQueueStatement
  simp only [Traced.andThen_snd, traceFlushIf_snd]
  rfl

theorem traceSubmitStatement_snd
    (statement : Statement) (batch : Bool) (c : Coordinator) (b : Backing σ) :
    (traceSubmitStatement ctx statement batch c b).2 = c.submitStatement ctx statement batch b := by
  unfold traceSubmitStatement submitStatement
  rw [Traced.andThen_snd, traceFlushIf_snd]
  congr 1
  funext _ c b
  cases batch
  · rfl
  · exact traceQueueStatement_snd ctx statement c b

theorem tracePlaceGroup_snd (root : RootType) (relative : Int) (c : Coordinator) (b : Backing σ) :
    (tracePlaceGroup ctx root relative c b).2 = c.placeGroup ctx root relative b := by
  unfold tracePlaceGroup placeGroup
  rcases placement relative (ctx.registry.imported root) c.window c.maxDepth with depth | _
  · rfl
  · simp only [Traced.andThen_snd]
    rfl

theorem latest_flushWith (reset : Bool) (c : Coordinator) (b : Backing σ) :
    (c.flushWith ctx reset b).2.1.latest = c.latest := by
  unfold flushWith
  rcases c.executeBuffered ctx b with ⟨e | totals, after⟩ <;> rfl

/-- Where the place of a group is unknown, everything is flushed and all groups are forgotten. -/
theorem placeGroup_of_unknown
    {root : RootType} {relative : Int} {c : Coordinator}
    (h : placement relative (ctx.registry.imported root) c.window c.maxDepth = .unknown)
    (b : Backing σ) :
    c.placeGroup ctx root relative b =
      (c.flushWith ctx true (noteForced root b)).andThen
        (fun _ c b => (.ok (baseDepth + relative), c, b)) := by
  unfold placeGroup
  rw [h]
  rfl

theorem latest_placeGroup (root : RootType) (relative : Int) (c : Coordinator) (b : Backing σ) :
    (c.placeGroup ctx root relative b).2.1.latest = c.latest := by
  rcases h : placement relative (ctx.registry.imported root) c.window c.maxDepth with depth | _
  · simp [placeGroup, h]
  · have hflush := latest_flushWith ctx true c (noteForced root b)
    rw [placeGroup_of_unknown ctx h]
    rcases hstep : c.flushWith ctx true (noteForced root b) with ⟨e | totals, after, last⟩
    all_goals
      rw [hstep] at hflush
      exact hflush

theorem traceFile_snd (record : Record) (c : Coordinator) (b : Backing σ) :
    (traceFile ctx record c b).2 =
      (c.groupFor ctx record.root record.depth b).andThen (fun group placed b =>
        (.ok (), { placed with
            window := placed.window.insert record.root (group.append c.latest record)
            highWater := max placed.highWater (group.append c.latest record).size },
          noteQueued (.recordQueued record.kind.name record.root.name
            (group.append c.latest record).size) b)) := by
  unfold traceFile groupFor
  rcases c.window.get? record.root with _ | group
  · simp only [Traced.andThen_snd, tracePlaceGroup_snd, openGroup]
    have hlatest := latest_placeGroup ctx record.root record.depth c b
    rcases hplace : c.placeGroup ctx record.root record.depth b with ⟨e | depth, placed, after⟩
    · rfl
    · have hsame : placed.latest = c.latest := by rw [← hlatest, hplace]
      rw [← hsame]
      rfl
  · rfl

theorem traceQueueRecord_snd (record : Record) (c : Coordinator) (b : Backing σ) :
    (traceQueueRecord ctx record c b).2 = c.queueRecord ctx record b := by
  unfold traceQueueRecord queueRecord
  simp only [Traced.andThen_snd, traceFlushIf_snd, traceFile_snd]
  simp only [Traced.stage, Step.andThen]
  change _ = (c.numbered.groupFor ctx record.root record.depth b).andThen _
  rcases c.numbered.groupFor ctx record.root record.depth b with ⟨e | group, placed, after⟩
  · rfl
  · rfl

theorem traceSubmitRecord_snd
    (record : Record) (batch : Bool) (c : Coordinator) (b : Backing σ) :
    (traceSubmitRecord ctx record batch c b).2 = c.submitRecord ctx record batch b := by
  unfold traceSubmitRecord submitRecord
  split
  · rw [Traced.andThen_snd, traceFlushIf_snd]
    congr 1
    funext _ c b
    cases batch
    · rfl
    · exact traceQueueRecord_snd ctx record c b
  · rfl

theorem trace_snd (operation : Operation) (c : Coordinator) (b : Backing σ) :
    (trace ctx operation c b).2 = perform ctx operation c b := by
  cases operation with
  | submit request batch =>
      cases request with
      | record record =>
          simp only [trace, perform, Traced.andThen_snd, traceSubmit, submit, traceSubmitRecord_snd]
          rfl
      | statement statement =>
          simp only [trace, perform, Traced.andThen_snd, traceSubmit, submit,
            traceSubmitStatement_snd]
          rfl
  | flush reset => exact Traced.andThen_snd _ _
  | clear | setBatchSize | setFetchKeys | setFlushOnMixed | takeKeys => rfl

end Traces

/-! ## Runs -/

/-- Perform several operations in turn, with the stages of all of them. -/
def performAll [Store σ] (ctx : Context) :
    List Operation → Coordinator → Backing σ → List (Stage σ) × Coordinator × Backing σ
  | [], c, b => ([], c, b)
  | operation :: rest, c, b =>
      let (later, last) :=
        performAll ctx rest (perform ctx operation c b).2.1 (perform ctx operation c b).2.2
      (stages ctx operation c b ++ later, last)

theorem Reachable.performAll [Store σ]
    {ctx : Context} {c : Coordinator} (h : Reachable ctx c) (operations : List Operation)
    (b : Backing σ) : Reachable ctx (performAll ctx operations c b).2.1 := by
  induction operations generalizing c b with
  | nil => exact h
  | cons operation rest ih => exact ih (.step operation b h) _

/-- The types `a`, `b`, `c` and `d`, of which the last imports the given ones. -/
def lettered (imported : List RootType) : Context where
  registry := .ofList [{ root := ⟨"a"⟩, table := "a" }, { root := ⟨"b"⟩, table := "b" },
    { root := ⟨"c"⟩, table := "c" }, { root := ⟨"d"⟩, table := "d", imported := imported }]
  transaction := "t"
  summarise := false

def insertion (root : String) (depth : Int) : Record :=
  (Record.new ⟨root⟩ .insert).withDepth depth

/-- A watched recording store that has not been asked for anything. -/
def untouched : Backing (Watched Memory) := ⟨⟨[], {}⟩, {}, []⟩

end Cascade.Coordinator
