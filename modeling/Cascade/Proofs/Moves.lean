import Cascade.Proofs.Stages

/-!
# Moves

The stages of an operation are moves from one moment to the next, so whatever
every move keeps is kept by every operation.  A flush that fails is the last
move of its operation.
-/

namespace Cascade.Coordinator

variable {σ α β : Type}

/-- A coordinator with its backing, and whether the latest number waits for its request. -/
structure Moment (σ : Type) where
  given : Bool
  coordinator : Coordinator
  backing : Backing σ

/-- What a stage does to a moment. -/
inductive Move [Store σ] (ctx : Context) : Stage σ → Moment σ → Moment σ → Prop
  | flush (given reset : Bool) (c : Coordinator) (b : Backing σ) :
      Move ctx (.flush reset c b) ⟨given, c, b⟩
        ⟨given, (c.flushWith ctx reset b).2.1, (c.flushWith ctx reset b).2.2⟩
  | number (given : Bool) (c : Coordinator) (b : Backing σ) :
      Move ctx .number ⟨given, c, b⟩ ⟨true, c.numbered, b⟩
  | statement (s : Statement) (c : Coordinator) (b : Backing σ) :
      Move ctx (.queue c.latest (.statement s)) ⟨true, c, b⟩
        ⟨false, c.withStatement s, noteStatement s c b⟩
  | member (record : Record) (group : RecordGroup) (c : Coordinator) (b : Backing σ) :
      ctx.registry.contains record.root → c.window.get? record.root = some group →
      Move ctx (.queue c.latest (.record record)) ⟨true, c, b⟩
        ⟨false, c.withRecord record group, noteRecord record group c b⟩
  | entrant (record : Record) (depth : Int) (c : Coordinator) (b : Backing σ) :
      ctx.registry.contains record.root → c.window.get? record.root = none →
      placement record.depth (ctx.registry.imported record.root) c.window c.maxDepth =
        .depth depth →
      Move ctx (.queue c.latest (.record record)) ⟨true, c, b⟩
        ⟨false, (c.withOpened depth).withRecord record (.new record.root depth c.opened),
          noteRecord record (.new record.root depth c.opened) c b⟩
  | force (given : Bool) (root : RootType) (c : Coordinator) (b : Backing σ) :
      Move ctx (.force root) ⟨given, c, b⟩ ⟨given, c, noteForced root b⟩
  | execute (given : Bool) (request : Request) (c : Coordinator) (b : Backing σ) :
      Move ctx (.execute request c.policy.fetchKeys b) ⟨given, c, b⟩
        ⟨given, c, (c.executeNow ctx request b).2.2⟩
  | clear (given : Bool) (c : Coordinator) (b : Backing σ) :
      Move ctx (.clear c) ⟨given, c, b⟩ ⟨given, (c.clear ctx b).1, (c.clear ctx b).2⟩
  | adjust (given : Bool) (policy : Policy) (keys : GeneratedKeys) (c : Coordinator)
      (b : Backing σ) :
      Move ctx .adjust ⟨given, c, b⟩ ⟨given, { c with policy := policy, keys := keys }, b⟩

/-- The moves of a list of stages, one after the other. -/
inductive Path [Store σ] (ctx : Context) : List (Stage σ) → Moment σ → Moment σ → Prop
  | nil (m : Moment σ) : Path ctx [] m m
  | cons {stage : Stage σ} {stages : List (Stage σ)} {m next last : Moment σ} :
      Move ctx stage m next → Path ctx stages next last → Path ctx (stage :: stages) m last

namespace Path

variable [Store σ] {ctx : Context} {m next last : Moment σ} {stage : Stage σ}
  {stages others : List (Stage σ)}

theorem single (h : Move ctx stage m next) : Path ctx [stage] m next :=
  .cons h (.nil next)

theorem append (h : Path ctx stages m next) (h' : Path ctx others next last) :
    Path ctx (stages ++ others) m last := by
  induction h with
  | nil => exact h'
  | cons hmove _ ih => exact .cons hmove (ih h')

/-- What every move keeps holds at the end of a path, and wherever a stage of it begins. -/
theorem keeps
    {P : Moment σ → Prop}
    (hkeep : ∀ {stage m next}, Move ctx stage m next → P m → P next)
    (h : Path ctx stages m last) (hm : P m) :
    P last ∧ ∀ stage ∈ stages, ∃ before after, P before ∧ Move ctx stage before after := by
  induction h with
  | nil => exact ⟨hm, by simp⟩
  | cons hmove _ ih =>
      obtain ⟨hlast, hstages⟩ := ih (hkeep hmove hm)
      refine ⟨hlast, ?_⟩
      intro stage hmem
      rcases List.mem_cons.1 hmem with rfl | hmem
      · exact ⟨_, _, hm, hmove⟩
      · exact hstages stage hmem

/-- What every move keeps of the stages so far holds at the end of a path. -/
theorem accumulates
    {P : List (Stage σ) → Moment σ → Prop}
    (hstep : ∀ {history stage m next}, Move ctx stage m next → P history m →
      P (history ++ [stage]) next)
    (h : Path ctx stages m last) {history : List (Stage σ)} (hm : P history m) :
    P (history ++ stages) last := by
  induction h generalizing history with
  | nil => simpa using hm
  | cons hmove _ ih => simpa using ih (hstep hmove hm)

end Path

theorem Move.policy [Store σ] {ctx : Context} {stage : Stage σ} {m next : Moment σ}
    (hmove : Move ctx stage m next) (hne : stage ≠ .adjust) :
    next.coordinator.policy = m.coordinator.policy := by
  cases hmove with
  | flush given reset c b => exact policy_flushWith ctx reset c b
  | adjust => exact absurd rfl hne
  | number | statement | member | entrant | force | execute | clear => rfl

theorem Path.policy [Store σ] {ctx : Context} {stages : List (Stage σ)} {m last : Moment σ}
    (hpath : Path ctx stages m last) (hnot : .adjust ∉ stages) :
    last.coordinator.policy = m.coordinator.policy := by
  induction hpath with
  | nil => rfl
  | cons hmove _ ih =>
      rw [List.mem_cons, not_or] at hnot
      rw [ih hnot.2, hmove.policy (Ne.symm hnot.1)]

/-! ## Every operation is a path -/

/-- The stages of a step are a path from a moment to its result, where `given` is reached. -/
def Traced.LeadsTo [Store σ] (ctx : Context) (m : Moment σ) (given : Bool) (t : Traced σ α) :
    Prop :=
  Path ctx t.1 m ⟨given, t.2.2.1, t.2.2.2⟩

/-- The stages of a step are a path from a moment to its result. -/
def Traced.Leads [Store σ] (ctx : Context) (m : Moment σ) (t : Traced σ α) : Prop :=
  ∃ given, t.LeadsTo ctx m given

section Paths

variable [Store σ] {ctx : Context} {m : Moment σ} {given : Bool}

theorem Traced.LeadsTo.andThen_same
    {t : Traced σ α} {next : α → Coordinator → Backing σ → Traced σ β}
    (h : t.LeadsTo ctx m given)
    (hnext : ∀ a c b, t.2 = (.ok a, c, b) → (next a c b).LeadsTo ctx ⟨given, c, b⟩ given) :
    (t.andThen next).LeadsTo ctx m given := by
  obtain ⟨stages, e | a, c, b⟩ := t
  · exact h
  · exact Path.append h (hnext a c b rfl)

theorem Traced.LeadsTo.andThen
    {t : Traced σ α} {next : α → Coordinator → Backing σ → Traced σ β}
    (h : t.LeadsTo ctx m given)
    (hnext : ∀ a c b, t.2 = (.ok a, c, b) → (next a c b).Leads ctx ⟨given, c, b⟩) :
    (t.andThen next).Leads ctx m := by
  obtain ⟨stages, e | a, c, b⟩ := t
  · exact ⟨given, h⟩
  · obtain ⟨last, hlast⟩ := hnext a c b rfl
    exact ⟨last, Path.append h hlast⟩

theorem Traced.LeadsTo.leads {t : Traced σ α} (h : t.LeadsTo ctx m given) : t.Leads ctx m :=
  ⟨given, h⟩

variable (ctx) (given)

theorem leadsTo_done (a : α) (c : Coordinator) (b : Backing σ) :
    (Traced.done a c b).LeadsTo ctx ⟨given, c, b⟩ given :=
  .nil _

theorem leadsTo_traceFlush (reset : Bool) (c : Coordinator) (b : Backing σ) :
    (traceFlush ctx reset c b).LeadsTo ctx ⟨given, c, b⟩ given :=
  .single (.flush given reset c b)

theorem leadsTo_traceFlushIf (condition : Bool) (c : Coordinator) (b : Backing σ) :
    (traceFlushIf ctx condition c b).LeadsTo ctx ⟨given, c, b⟩ given := by
  unfold traceFlushIf
  split
  · apply (leadsTo_traceFlush ctx given false c b).andThen_same
    intro _ c b _
    exact leadsTo_done ctx given () c b
  · exact leadsTo_done ctx given () c b

theorem leadsTo_traceExecute (request : Request) (c : Coordinator) (b : Backing σ) :
    (traceExecute ctx request c b).LeadsTo ctx ⟨given, c, b⟩ given :=
  .single (.execute given request c b)

theorem leads_traceQueueStatement (statement : Statement) (c : Coordinator) (b : Backing σ) :
    (traceQueueStatement ctx statement c b).Leads ctx ⟨given, c, b⟩ := by
  have hnumber : (Traced.stage .number c.numbered b).LeadsTo ctx ⟨given, c, b⟩ true :=
    .single (.number given c b)
  apply hnumber.andThen
  intro _ n b' _
  have hqueue : (Traced.stage (.queue n.latest (.statement statement)) (n.withStatement statement)
      (noteStatement statement n b')).LeadsTo ctx ⟨true, n, b'⟩ false :=
    .single (.statement statement n b')
  apply hqueue.andThen
  intro _ queued b'' _
  apply (leadsTo_traceFlushIf ctx false _ queued b'').andThen
  intro _ c b _
  exact (leadsTo_done ctx false _ c b).leads

theorem leads_traceSubmitStatement
    (statement : Statement) (batch : Bool) (c : Coordinator) (b : Backing σ) :
    (traceSubmitStatement ctx statement batch c b).Leads ctx ⟨given, c, b⟩ := by
  apply (leadsTo_traceFlushIf ctx given _ c b).andThen
  intro _ c b _
  cases batch
  · exact (leadsTo_traceExecute ctx given _ c b).leads
  · exact leads_traceQueueStatement ctx given statement c b

theorem leadsTo_tracePlaceGroup
    (root : RootType) (relative : Int) (c : Coordinator) (b : Backing σ) :
    (tracePlaceGroup ctx root relative c b).LeadsTo ctx ⟨given, c, b⟩ given := by
  unfold tracePlaceGroup
  split
  · exact leadsTo_done ctx given _ c b
  · have hforce : (Traced.stage (.force root) c (noteForced root b)).LeadsTo ctx
        ⟨given, c, b⟩ given :=
      .single (.force given root c b)
    apply hforce.andThen_same
    intro _ c b _
    apply (leadsTo_traceFlush ctx given true c b).andThen_same
    intro _ c b _
    exact leadsTo_done ctx given _ c b

variable {ctx}

/-- A place that was found is the place in the window that is there by then. -/
theorem placement_of_placeGroup
    {root : RootType} {relative depth : Int} {c placed : Coordinator} {b after : Backing σ}
    (hnone : c.window.get? root = none)
    (hplace : c.placeGroup ctx root relative b = (.ok depth, placed, after)) :
    placed.window.get? root = none ∧
      placement relative (ctx.registry.imported root) placed.window placed.maxDepth =
        .depth depth := by
  rcases h : placement relative (ctx.registry.imported root) c.window c.maxDepth with found | _
  · simp only [placeGroup, h] at hplace
    cases hplace
    exact ⟨hnone, h⟩
  · -- The reset empties the window, and there every type is placed off the base depth.
    rw [placeGroup_of_unknown ctx h, flushWith] at hplace
    rcases hbuffered : c.executeBuffered ctx (noteForced root b) with ⟨e | totals, last⟩
    all_goals
      rw [hbuffered] at hplace
      cases hplace
    · exact ⟨rfl, if_pos (Or.inr rfl)⟩

theorem leadsTo_traceFile
    {record : Record} (hknown : ctx.registry.contains record.root) (c : Coordinator)
    (b : Backing σ) :
    (traceFile ctx record c b).Leads ctx ⟨true, c, b⟩ := by
  unfold traceFile
  split
  · next group hget => exact ⟨false, .single (.member record group c b hknown hget)⟩
  · next hnone =>
    apply (leadsTo_tracePlaceGroup ctx true record.root record.depth c b).andThen
    intro depth placed after hplace
    rw [tracePlaceGroup_snd] at hplace
    obtain ⟨hnone, hdepth⟩ := placement_of_placeGroup hnone hplace
    exact ⟨false, .single (.entrant record depth placed after hknown hnone hdepth)⟩

theorem leads_traceQueueRecord
    {record : Record} (hknown : ctx.registry.contains record.root) (c : Coordinator)
    (b : Backing σ) :
    (traceQueueRecord ctx record c b).Leads ctx ⟨given, c, b⟩ := by
  have hnumber : (Traced.stage .number c.numbered b).LeadsTo ctx ⟨given, c, b⟩ true :=
    .single (.number given c b)
  apply hnumber.andThen
  intro _ n b' _
  obtain ⟨flag, hfile⟩ := leadsTo_traceFile hknown n b'
  apply hfile.andThen
  intro _ queued b'' _
  apply (leadsTo_traceFlushIf ctx flag _ queued b'').andThen
  intro _ c b _
  exact (leadsTo_done ctx flag _ c b).leads

variable (ctx)

theorem leads_traceSubmitRecord
    (record : Record) (batch : Bool) (c : Coordinator) (b : Backing σ) :
    (traceSubmitRecord ctx record batch c b).Leads ctx ⟨given, c, b⟩ := by
  unfold traceSubmitRecord
  split
  · next hknown =>
    apply (leadsTo_traceFlushIf ctx given _ c b).andThen
    intro _ c b _
    cases batch
    · exact (leadsTo_traceExecute ctx given _ c b).leads
    · exact leads_traceQueueRecord given hknown c b
  · exact ⟨given, .nil _⟩

/-- The stages of an operation are a path from its beginning to its end. -/
theorem path_stages (operation : Operation) (c : Coordinator) (b : Backing σ) :
    ∃ last, Path ctx (stages ctx operation c b) ⟨given, c, b⟩
      ⟨last, (perform ctx operation c b).2.1, (perform ctx operation c b).2.2⟩ := by
  rw [← trace_snd]
  change (trace ctx operation c b).Leads ctx ⟨given, c, b⟩
  cases operation with
  | submit request batch =>
      cases request with
      | record record =>
          obtain ⟨flag, h⟩ := leads_traceSubmitRecord ctx given record batch c b
          apply h.andThen
          intro _ c b _
          exact (leadsTo_done ctx flag _ c b).leads
      | statement statement =>
          obtain ⟨flag, h⟩ := leads_traceSubmitStatement ctx given statement batch c b
          apply h.andThen
          intro _ c b _
          exact (leadsTo_done ctx flag _ c b).leads
  | flush reset =>
      apply (leadsTo_traceFlush ctx given reset c b).andThen
      intro _ c b _
      exact (leadsTo_done ctx given _ c b).leads
  | clear => exact ⟨given, .single (.clear given c b)⟩
  | setBatchSize size =>
      refine ⟨given, ?_⟩
      by_cases hsize : 1 < size
      · have hmove : Move ctx .adjust ⟨given, c, b⟩
            ⟨given, { c with policy := { c.policy with batchSize := size } }, b⟩ :=
          .adjust given { c.policy with batchSize := size } c.keys c b
        simpa [Traced.LeadsTo, trace, perform, setBatchSize, hsize] using Path.single hmove
      · have hmove : Move ctx .adjust ⟨given, c, b⟩ ⟨given, c, b⟩ :=
          .adjust given c.policy c.keys c b
        simpa [Traced.LeadsTo, trace, perform, setBatchSize, hsize] using Path.single hmove
  | setFetchKeys choice =>
      refine ⟨given, ?_⟩
      cases choice with
      | none => exact .single (.adjust given c.policy c.keys c b)
      | some fetch =>
          exact .single (.adjust given { c.policy with fetchKeys := fetch } c.keys c b)
  | setFlushOnMixed flush =>
      exact ⟨given, .single (.adjust given { c.policy with flushOnMixed := flush } c.keys c b)⟩
  | takeKeys => exact ⟨given, .single (.adjust given c.policy ∅ c b)⟩

end Paths

/-! ## A failed flush ends its operation -/

/-- If a flush of a step has failed, the step has ended with it. -/
def Traced.Halting [Store σ] (ctx : Context) (t : Traced σ α) : Prop :=
  ∀ reset c b e, Stage.flush reset c b ∈ t.1 → (c.flushWith ctx reset b).1 = .error e →
    t.2 = (.error e, (c.flushWith ctx reset b).2)

section Halting

variable [Store σ] {ctx : Context}

theorem Traced.Halting.andThen
    {t : Traced σ α} {next : α → Coordinator → Backing σ → Traced σ β}
    (h : t.Halting ctx) (hnext : ∀ a c b, (next a c b).Halting ctx) :
    (t.andThen next).Halting ctx := by
  intro reset c b e hmem hfail
  obtain ⟨stages, e' | a, c', b'⟩ := t
  · have hend := h reset c b e hmem hfail
    simp only [Prod.mk.injEq, Except.error.injEq] at hend
    simpa [Traced.andThen] using hend
  · rcases List.mem_append.1 hmem with hmem | hmem
    · have hend := h reset c b e hmem hfail
      simp at hend
    · exact hnext a c' b' reset c b e hmem hfail

theorem Traced.Halting.of_no_flush
    {t : Traced σ α} (h : ∀ reset c b, Stage.flush reset c b ∉ t.1) : t.Halting ctx :=
  fun reset c b _ hmem _ => absurd hmem (h reset c b)

theorem halting_done (a : α) (c : Coordinator) (b : Backing σ) :
    (Traced.done a c b).Halting ctx :=
  .of_no_flush (by simp [Traced.done])

variable (ctx)

theorem halting_traceFlush (reset : Bool) (c : Coordinator) (b : Backing σ) :
    (traceFlush ctx reset c b).Halting ctx := by
  intro reset' c' b' e hmem hfail
  have hsame : Stage.flush reset' c' b' = Stage.flush reset c b := by
    simpa [traceFlush] using hmem
  cases hsame
  exact Prod.ext hfail rfl

theorem halting_traceFlushIf (condition : Bool) (c : Coordinator) (b : Backing σ) :
    (traceFlushIf ctx condition c b).Halting ctx := by
  unfold traceFlushIf
  split
  · exact (halting_traceFlush ctx false c b).andThen (fun _ c b => halting_done () c b)
  · exact halting_done () c b

theorem halting_traceExecute (request : Request) (c : Coordinator) (b : Backing σ) :
    (traceExecute ctx request c b).Halting ctx :=
  .of_no_flush (by simp [traceExecute])

theorem halting_traceQueueStatement (statement : Statement) (c : Coordinator) (b : Backing σ) :
    (traceQueueStatement ctx statement c b).Halting ctx := by
  apply Traced.Halting.andThen
  · exact .of_no_flush (by simp [Traced.stage])
  · intro _ n b
    apply Traced.Halting.andThen
    · exact .of_no_flush (by simp [Traced.stage])
    · intro _ queued b
      exact (halting_traceFlushIf ctx _ queued b).andThen (fun _ c b => halting_done _ c b)

theorem halting_traceSubmitStatement
    (statement : Statement) (batch : Bool) (c : Coordinator) (b : Backing σ) :
    (traceSubmitStatement ctx statement batch c b).Halting ctx := by
  apply (halting_traceFlushIf ctx _ c b).andThen
  intro _ c b
  cases batch
  · exact halting_traceExecute ctx _ c b
  · exact halting_traceQueueStatement ctx statement c b

theorem halting_tracePlaceGroup
    (root : RootType) (relative : Int) (c : Coordinator) (b : Backing σ) :
    (tracePlaceGroup ctx root relative c b).Halting ctx := by
  unfold tracePlaceGroup
  split
  · exact halting_done _ c b
  · apply Traced.Halting.andThen
    · exact .of_no_flush (by simp [Traced.stage])
    · intro _ c b
      exact (halting_traceFlush ctx true c b).andThen (fun _ c b => halting_done _ c b)

theorem halting_traceFile (record : Record) (c : Coordinator) (b : Backing σ) :
    (traceFile ctx record c b).Halting ctx := by
  unfold traceFile
  split
  · exact .of_no_flush (by simp [Traced.stage])
  · apply (halting_tracePlaceGroup ctx _ _ c b).andThen
    intro depth c b
    exact .of_no_flush (by simp [Traced.stage])

theorem halting_traceQueueRecord (record : Record) (c : Coordinator) (b : Backing σ) :
    (traceQueueRecord ctx record c b).Halting ctx := by
  apply Traced.Halting.andThen
  · exact .of_no_flush (by simp [Traced.stage])
  · intro _ n b
    apply (halting_traceFile ctx record n b).andThen
    intro _ queued b
    exact (halting_traceFlushIf ctx _ queued b).andThen (fun _ c b => halting_done _ c b)

theorem halting_traceSubmitRecord
    (record : Record) (batch : Bool) (c : Coordinator) (b : Backing σ) :
    (traceSubmitRecord ctx record batch c b).Halting ctx := by
  unfold traceSubmitRecord
  split
  · apply (halting_traceFlushIf ctx _ c b).andThen
    intro _ c b
    cases batch
    · exact halting_traceExecute ctx _ c b
    · exact halting_traceQueueRecord ctx record c b
  · exact .of_no_flush (by simp)

/-- An operation in which a flush fails ends with the error and the coordinator of that flush. -/
theorem perform_of_failed_flush
    {operation : Operation} {c : Coordinator} {b : Backing σ} {reset : Bool} {d : Coordinator}
    {begun : Backing σ} {e : WriteError}
    (hmem : Stage.flush reset d begun ∈ stages ctx operation c b)
    (hfail : (d.flushWith ctx reset begun).1 = .error e) :
    perform ctx operation c b = (.error e, (d.flushWith ctx reset begun).2) := by
  have hhalting : (trace ctx operation c b).Halting ctx := by
    cases operation with
    | submit request batch =>
        cases request with
        | record record =>
            exact (halting_traceSubmitRecord ctx record batch c b).andThen
              (fun _ c b => halting_done _ c b)
        | statement statement =>
            exact (halting_traceSubmitStatement ctx statement batch c b).andThen
              (fun _ c b => halting_done _ c b)
    | flush reset =>
        exact (halting_traceFlush ctx reset c b).andThen (fun _ c b => halting_done _ c b)
    | clear | setBatchSize | setFetchKeys | setFlushOnMixed | takeKeys =>
        exact .of_no_flush (by simp [trace])
  rw [← trace_snd]
  exact hhalting reset d begun e hmem hfail

end Halting

end Cascade.Coordinator
