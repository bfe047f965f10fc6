import Cascade.Proofs.Accounts
import Cascade.Proofs.Errands
import Cascade.Proofs.JournalLines
import Cascade.Proofs.Tenure

/-!
# The logbook

The journal, the counters and what happens go together.  Whatever is counted is
told once, and a flush is told by a beginning and an end, by an end alone when
it failed before it reached the records, or not at all when it had no records
to execute.  Besides that the journal has asides, which no counter counts and
which say nothing of a flush of records.
-/

namespace Cascade

namespace Journal

def mentions (event : Event) (entries : List Entry) : Nat :=
  entries.countP (fun entry => entry.event? = some event)

/-- The counter that is advanced whenever an event happens, if there is one. -/
def Event.counter? : Event → Option (Metrics → Nat)
  | .queued => some Metrics.queued
  | .executedNow => some Metrics.executedNow
  | .resetForced => some Metrics.forcedResets
  | .flushFailed => some Metrics.flushFailures
  | .flushBegun | .flushCompleted | .cleared | .statementsFlushed | .committed
  | .rolledBack => none

/-- How the counters are advanced when an event happens. -/
def Event.advance : Event → Metrics → Metrics
  | .queued => Metrics.countQueued
  | .executedNow => Metrics.countExecutedNow
  | .resetForced => Metrics.countForcedReset
  | .flushFailed => Metrics.countFlushFailure
  | .flushBegun | .flushCompleted | .cleared | .statementsFlushed | .committed
  | .rolledBack => id

/-- An event advances its own counter by one and no other one. -/
theorem Event.counter_advance
    {other : Event} {counter : Metrics → Nat} (hcounter : other.counter? = some counter)
    (event : Event) (m : Metrics) :
    counter (event.advance m) = counter m + if event = other then 1 else 0 := by
  cases other <;> cases hcounter <;> cases event <;> rfl

def Event.marksFlush : Event → Bool
  | .flushBegun | .flushCompleted | .flushFailed => true
  | .queued | .executedNow | .resetForced | .cleared | .statementsFlushed | .committed
  | .rolledBack => false

/-- Whether an entry tells of the beginning or an end of a flush. -/
def Entry.marksFlush (entry : Entry) : Bool :=
  entry.event?.any Event.marksFlush

/-- The entries that tell of beginnings and ends of flushes. -/
def marks (entries : List Entry) : List Entry :=
  entries.filter Entry.marksFlush

/-- An aside is not counted and marks no flush. -/
def Entry.IsAside (entry : Entry) : Prop :=
  entry.marksFlush = false ∧ ∀ event, entry.event? = some event → event.counter? = none

theorem mentions_append (event : Event) (first second : List Entry) :
    mentions event (first ++ second) = mentions event first + mentions event second :=
  List.countP_append

theorem marks_append (first second : List Entry) :
    marks (first ++ second) = marks first ++ marks second :=
  List.filter_append _ _

theorem mentions_cons (event : Event) (entry : Entry) (entries : List Entry) :
    mentions event (entry :: entries) =
      mentions event entries + if entry.event? = some event then 1 else 0 := by
  simp [mentions, List.countP_cons]

section Asides

variable {asides : List Entry} (h : ∀ entry ∈ asides, entry.IsAside)

include h

theorem marks_of_asides : marks asides = [] :=
  List.filter_eq_nil_iff.2 (fun entry hmem => by simp [(h entry hmem).1])

theorem mentions_of_asides {event : Event} {counter : Metrics → Nat}
    (hcounter : event.counter? = some counter) : mentions event asides = 0 := by
  refine List.countP_eq_zero.2 (fun entry hmem hevent => ?_)
  have hnone := (h entry hmem).2 event (of_decide_eq_true hevent)
  rw [hcounter] at hnone
  cases hnone

end Asides

theorem isAside_cleared (transaction : String) : (Entry.cleared transaction).IsAside := by
  refine ⟨rfl, ?_⟩
  rintro event ⟨⟩
  rfl

theorem isAside_committed (transaction : String) : (Entry.committed transaction).IsAside := by
  refine ⟨rfl, ?_⟩
  rintro event ⟨⟩
  rfl

theorem isAside_rolledBack (discarded : Nat) (transaction : String) :
    (Entry.rolledBack discarded transaction).IsAside := by
  refine ⟨rfl, ?_⟩
  rintro event ⟨⟩
  rfl

theorem isAside_statementsFlushed (statements : Nat) :
    (Entry.statementsFlushed statements).IsAside := by
  refine ⟨rfl, ?_⟩
  rintro event ⟨⟩
  rfl

theorem isAside_summary (transaction message : String) :
    (Entry.summary transaction message).IsAside :=
  ⟨rfl, nofun⟩

end Journal

open Journal

/-- The journal has grown by some entries, and each counter of an event by the number of entries
that report the event. -/
structure Backing.Logged {σ : Type} (before after : Backing σ) (told : List Entry) : Prop where
  journal : after.journal = before.journal ++ told
  counted : ∀ {event : Event} {counter : Metrics → Nat}, event.counter? = some counter →
    counter after.metrics = counter before.metrics + mentions event told

namespace Backing.Logged

variable {σ : Type} {before middle after : Backing σ} {told others : List Entry}

theorem refl (b : Backing σ) : b.Logged b [] where
  journal := (List.append_nil _).symm
  counted _ := rfl

theorem trans (h : before.Logged middle told) (h' : middle.Logged after others) :
    before.Logged after (told ++ others) where
  journal := by rw [h'.journal, h.journal, List.append_assoc]
  counted hcounter := by
    rw [h'.counted hcounter, h.counted hcounter, mentions_append, Nat.add_assoc]

theorem note (h : before.Logged after told) {entry : Entry} (haside : entry.IsAside) :
    before.Logged (after.note entry) (told ++ [entry]) where
  journal := by rw [Backing.note, h.journal, List.append_assoc]
  counted hcounter := by
    have hnone := mentions_of_asides (List.forall_mem_singleton.2 haside) hcounter
    rw [mentions_append, hnone, Nat.add_zero, ← h.counted hcounter]
    rfl

theorem of_event
    {entry : Entry} {event : Event} (hevent : entry.event? = some event) (b : Backing σ) :
    b.Logged ((b.count event.advance).note entry) [entry] where
  journal := rfl
  counted hcounter := by
    refine (Event.counter_advance hcounter event b.metrics).trans ?_
    simp [mentions, List.countP_singleton, hevent]

theorem addStatements (h : before.Logged after told) (count : Nat) :
    before.Logged (after.count (Metrics.addStatements count)) told where
  journal := h.journal
  counted {event _} hcounter := by
    rw [← h.counted hcounter]
    cases event <;> cases hcounter <;> rfl

end Backing.Logged

theorem Backing.logged_executeNow {σ : Type} [Store σ]
    (registry : Registry) (fetch : Bool) (request : Request) (b : Backing σ) :
    ∃ told, b.Logged (b.executeNow registry fetch request).2 told ∧ marks told = [] := by
  unfold Backing.executeNow
  rcases request.execute registry fetch b.store with ⟨e | outcome, store⟩
  · exact ⟨[], ⟨(List.append_nil _).symm, fun _ => rfl⟩, rfl⟩
  · have htold : (Entry.executedNow request.name).event? = some .executedNow := rfl
    have hlogged := (Logged.of_event htold { b with store := store }).addStatements 1
    exact ⟨[.executedNow request.name], ⟨hlogged.journal, hlogged.counted⟩, rfl⟩

/-! ## What a flush tells and sends -/

namespace Coordinator

variable {σ : Type} [Store σ]

/-- How many parameter sets some calls have sent. -/
def setsIn (calls : List Seen) : Nat :=
  sumOf (calls.filterMap (fun seen => seen.call.setCount?))

omit [Store σ] in
theorem setsIn_append (first second : List Seen) :
    setsIn (first ++ second) = setsIn first + setsIn second := by
  rw [setsIn, List.filterMap_append, sumOf_append]
  rfl

omit [Store σ] in
theorem setsIn_accepted (fetch : Bool) (groups : List StatementGroup) :
    setsIn ((groups.map StatementGroup.accepted).map (Attempt.seen fetch)) =
      sumOf (groups.map StatementGroup.size) := by
  have hsize : ∀ group : StatementGroup,
      (group.accepted.seen fetch).call.setCount? = some group.size :=
    fun group => congrArg some (List.length_map _)
  rw [setsIn, List.map_map, List.filterMap_map, ← List.filterMap_eq_map]
  congr 2
  funext group
  exact hsize group

/-- The calls of groups that are all accepted have sent what the totals count. -/
theorem seen_executeGroups
    (fetch : Bool) (groups : List StatementGroup) (done : Totals) (store : Watched σ) :
    ∃ sent, (executeGroups fetch groups done store).2.seen = store.seen ++ sent ∧
      ∀ totals, (executeGroups fetch groups done store).1 = .ok totals →
        totals.statements = done.statements + setsIn sent := by
  refine ⟨_, executeGroups_seen fetch groups done store, ?_⟩
  intro totals hok
  rcases executeGroups_cases fetch groups done store with
    ⟨totals', hresult, hattempted, hcount⟩ | ⟨sent, refused, rest, e, -, -, hresult⟩
  all_goals
    rw [hok] at hresult
    cases hresult
  rw [hattempted, setsIn_accepted, hcount]

/-- What has been told and how many parameter sets have been sent between two backings. -/
structure Progress (before after : Backing (Watched σ)) (told : List Entry) (sets : Nat) :
    Prop where
  journal : after.journal = before.journal ++ told
  seen : ∃ sent, after.store.seen = before.store.seen ++ sent ∧ setsIn sent = sets

omit [Store σ] in
theorem Progress.trans
    {before middle after : Backing (Watched σ)} {told others : List Entry} {sets more : Nat}
    (h : Progress before middle told sets) (h' : Progress middle after others more) :
    Progress before after (told ++ others) (sets + more) := by
  obtain ⟨sent, hsent, rfl⟩ := h.seen
  obtain ⟨rest, hrest, rfl⟩ := h'.seen
  refine ⟨by rw [h'.journal, h.journal, List.append_assoc], sent ++ rest, ?_, setsIn_append _ _⟩
  rw [hrest, hsent, List.append_assoc]

theorem progress_executeStatements (c : Coordinator) (b : Backing (Watched σ)) :
    ∃ asides sets, Progress b (c.executeStatements b).2 asides sets ∧
      (∀ entry ∈ asides, entry.IsAside) ∧
      ∀ totals, (c.executeStatements b).1 = .ok totals → totals.statements = sets := by
  obtain ⟨sent, hsent, hcount⟩ :=
    seen_executeGroups c.policy.fetchKeys c.statements.groups {} b.store
  unfold executeStatements
  split
  · refine ⟨[], 0, ⟨(List.append_nil _).symm, [], (List.append_nil _).symm, rfl⟩,
      List.forall_mem_nil _, ?_⟩
    rintro totals ⟨⟩
    rfl
  · rcases hpass : executeGroups c.policy.fetchKeys c.statements.groups {} b.store with
      ⟨e | totals, store⟩
    all_goals rw [hpass] at hsent hcount
    · exact ⟨[], _, ⟨(List.append_nil _).symm, sent, hsent, rfl⟩, List.forall_mem_nil _, nofun⟩
    · refine ⟨[.statementsFlushed totals.statements], _, ⟨rfl, sent, hsent, rfl⟩, ?_, ?_⟩
      · exact List.forall_mem_singleton.2 (isAside_statementsFlushed _)
      · rintro _ ⟨⟩
        exact (hcount totals rfl).trans (Nat.zero_add _)

/-- What is told of the records of a flush, but for its failure. -/
inductive TellsRecords (transaction : String) (done sets : Nat) :
    Except WriteError Totals → List Entry → Prop
  | nothing (totals : Totals) : totals.statements = done → sets = 0 →
      TellsRecords transaction done sets (.ok totals) []
  | completed (totals : Totals) (groups : Nat) {asides : List Entry} :
      (∀ entry ∈ asides, entry.IsAside) → totals.statements = done + sets →
      TellsRecords transaction done sets (.ok totals) (.flushBegun groups transaction :: asides ++
        [.flushCompleted groups totals.rows totals.statements])
  | begun (e : WriteError) (groups : Nat) {asides : List Entry} :
      (∀ entry ∈ asides, entry.IsAside) →
      TellsRecords transaction done sets (.error e) (.flushBegun groups transaction :: asides)

omit [Store σ] in
theorem announce_eq (ctx : Context) (groups : List RecordGroup) (b : Backing σ) :
    ∃ asides, (∀ entry ∈ asides, entry.IsAside) ∧
      announce ctx groups b =
        { b with journal := b.journal ++ .flushBegun groups.length ctx.transaction :: asides } := by
  unfold announce
  split
  · refine ⟨[.summary ctx.transaction (summaryOf groups)],
      List.forall_mem_singleton.2 (isAside_summary _ _), ?_⟩
    simp [Backing.note]
  · exact ⟨[], List.forall_mem_nil _, rfl⟩

theorem progress_executeRecords
    (ctx : Context) (c : Coordinator) (done : Totals) (b : Backing (Watched σ)) :
    ∃ told sets, Progress b (c.executeRecords ctx done b).2 told sets ∧
      TellsRecords ctx.transaction done.statements sets (c.executeRecords ctx done b).1 told := by
  obtain ⟨asides, hasides, hannounced⟩ := announce_eq ctx c.window.ordered b
  obtain ⟨sent, hsent, hcount⟩ := seen_executeGroups c.policy.fetchKeys
    (planGroups ctx.registry c.policy.batchSize c.window.ordered).calls done b.store
  unfold executeRecords
  split
  · exact ⟨[], 0, ⟨(List.append_nil _).symm, [], (List.append_nil _).symm, rfl⟩,
      .nothing done rfl rfl⟩
  · simp only [hannounced, Plan.execute]
    rcases hpass : executeGroups c.policy.fetchKeys
      (planGroups ctx.registry c.policy.batchSize c.window.ordered).calls done b.store with
      ⟨e | totals, store⟩
    all_goals rw [hpass] at hsent hcount
    · exact ⟨_, _, ⟨rfl, sent, hsent, rfl⟩, .begun e _ hasides⟩
    · rcases (planGroups ctx.registry c.policy.batchSize c.window.ordered).refusal with _ | e
      · have htold := List.append_assoc b.journal
          (.flushBegun c.window.ordered.length ctx.transaction :: asides)
          [.flushCompleted c.window.ordered.length totals.rows totals.statements]
        exact ⟨_, _, ⟨htold, sent, hsent, rfl⟩, .completed totals _ hasides (hcount totals rfl)⟩
      · exact ⟨_, _, ⟨rfl, sent, hsent, rfl⟩, .begun e _ hasides⟩

/-- What is told of a flush in which some parameter sets are sent. -/
inductive TellsFlush (transaction : String) (sets : Nat) :
    Except WriteError Totals → List Entry → Prop
  /-- The flush ends well without a record to execute. -/
  | quiet (totals : Totals) {asides : List Entry} : (∀ entry ∈ asides, entry.IsAside) →
      TellsFlush transaction sets (.ok totals) asides
  /-- The flush ends well, and its statements are all that it has sent. -/
  | completed (totals : Totals) (groups : Nat) {asides between : List Entry} :
      (∀ entry ∈ asides, entry.IsAside) → (∀ entry ∈ between, entry.IsAside) →
      TellsFlush transaction sets (.ok totals) (asides ++ (.flushBegun groups transaction ::
        between ++ [.flushCompleted groups totals.rows sets]))
  /-- The flush fails after it has reached the records. -/
  | broken (e : WriteError) (groups : Nat) {asides between : List Entry} :
      (∀ entry ∈ asides, entry.IsAside) → (∀ entry ∈ between, entry.IsAside) →
      TellsFlush transaction sets (.error e) (asides ++ (.flushBegun groups transaction ::
        between ++ [.flushFailed e.code (e.succeeded?.getD 0) transaction]))
  /-- The flush fails before it reaches the records. -/
  | failed (e : WriteError) {asides : List Entry} : (∀ entry ∈ asides, entry.IsAside) →
      TellsFlush transaction sets (.error e)
        (asides ++ [.flushFailed e.code (e.succeeded?.getD 0) transaction])

section Ends

omit [Store σ]

variable {before after : Backing (Watched σ)} {told : List Entry} {sets : Nat}

theorem Progress.noteFailure
    (h : Progress before after told sets) (ctx : Context) (e : WriteError) :
    Progress before (noteFailure ctx e after)
      (told ++ [.flushFailed e.code (e.succeeded?.getD 0) ctx.transaction]) sets := by
  refine ⟨?_, h.seen⟩
  rw [← List.append_assoc, ← h.journal]
  rfl

theorem Progress.countFlush (h : Progress before after told sets) (totals : Totals) :
    Progress before (countFlush totals after) told sets := by
  unfold Coordinator.countFlush
  split
  · exact ⟨h.journal, h.seen⟩
  · exact h

end Ends

/-- What a flush adds to the journal, against the parameter sets that it sends. -/
theorem progress_flushWith
    (ctx : Context) (reset : Bool) (c : Coordinator) (b : Backing (Watched σ)) :
    ∃ told sets, Progress b (c.flushWith ctx reset b).2.2 told sets ∧
      TellsFlush ctx.transaction sets (c.flushWith ctx reset b).1 told := by
  obtain ⟨asides, sets, hfirst, hasides, hcount⟩ := progress_executeStatements c b
  unfold flushWith executeBuffered
  rcases hstatements : c.executeStatements b with ⟨e | totals, middle⟩
  all_goals rw [hstatements] at hfirst hcount
  · exact ⟨_, sets, hfirst.noteFailure ctx e, .failed e hasides⟩
  · obtain ⟨told, more, hsecond, htells⟩ := progress_executeRecords ctx c totals middle
    have hboth := hfirst.trans hsecond
    rw [hcount totals rfl] at htells
    simp only
    rcases hrecords : c.executeRecords ctx totals middle with ⟨e | all, after⟩
    all_goals
      rw [hrecords] at hboth htells
      cases htells
    · next groups between hbetween =>
      refine ⟨_, _, hboth.noteFailure ctx e, ?_⟩
      rw [List.append_assoc]
      exact .broken e groups hasides hbetween
    · exact ⟨_, _, hboth.countFlush all, (List.append_nil asides).symm ▸ .quiet all hasides⟩
    · next groups between hbetween hsame =>
      refine ⟨_, _, hboth.countFlush all, ?_⟩
      rw [hsame]
      exact .completed all groups hasides hbetween

/-- How often an event is counted in a flush with a result: a failure once, and nothing else. -/
def timesCounted (event : Event) : Except WriteError Totals → Nat
  | .ok _ => 0
  | .error _ => if event = .flushFailed then 1 else 0

omit [Store σ] in
theorem counter_countFlush
    {event : Event} {counter : Metrics → Nat} (hcounter : event.counter? = some counter)
    (totals : Totals) (b : Backing σ) :
    counter (countFlush totals b).metrics = counter b.metrics := by
  unfold countFlush
  split
  · cases event <;> cases hcounter <;> rfl
  · rfl

theorem counters_flushWith
    (ctx : Context) (reset : Bool) (c : Coordinator) (b : Backing σ) {event : Event}
    {counter : Metrics → Nat} (hcounter : event.counter? = some counter) :
    counter (c.flushWith ctx reset b).2.2.metrics =
      counter b.metrics + timesCounted event (c.flushWith ctx reset b).1 := by
  have hmetrics := metrics_executeBuffered ctx c b
  unfold flushWith
  rcases hbuffered : c.executeBuffered ctx b with ⟨e | totals, after⟩
  all_goals
    rw [hbuffered] at hmetrics
    simp only at hmetrics
    rw [← hmetrics]
  · cases event <;> cases hcounter <;> rfl
  · exact counter_countFlush hcounter totals after

omit [Store σ] in
theorem TellsFlush.mentions
    {transaction : String} {sets : Nat} {result : Except WriteError Totals} {told : List Entry}
    (h : TellsFlush transaction sets result told) {event : Event} {counter : Metrics → Nat}
    (hcounter : event.counter? = some counter) :
    mentions event told = timesCounted event result := by
  cases h with
  | quiet totals hasides => exact mentions_of_asides hasides hcounter
  | completed totals groups hasides hbetween | broken e groups hasides hbetween =>
      have hnone := mentions_of_asides hasides hcounter
      have hno := mentions_of_asides hbetween hcounter
      cases event <;> cases hcounter <;>
        simp [mentions_append, mentions_cons, hnone, hno, Entry.event?] <;> rfl
  | failed e hasides =>
      have hnone := mentions_of_asides hasides hcounter
      cases event <;> cases hcounter <;>
        simp [mentions_append, mentions_cons, hnone, Entry.event?] <;> rfl

/-! ## Flushes among the stages -/

/-- A flush of a coordinator, with the backing that it met. -/
structure Flush (σ : Type) where
  context : Context
  reset : Bool
  coordinator : Coordinator
  backing : Backing (Watched σ)

namespace Flush

def after (flush : Flush σ) : Backing (Watched σ) :=
  (flush.coordinator.flushWith flush.context flush.reset flush.backing).2.2

def entries (flush : Flush σ) : List Entry :=
  flush.after.journal.drop flush.backing.journal.length

def sets (flush : Flush σ) : Nat :=
  setsIn (flush.after.store.seen.drop flush.backing.store.seen.length)

theorem tells (flush : Flush σ) :
    flush.backing.Logged flush.after flush.entries ∧
      ∃ result, TellsFlush flush.context.transaction flush.sets result flush.entries := by
  obtain ⟨ctx, reset, c, b⟩ := flush
  obtain ⟨told, sets, ⟨hjournal, sent, hsent, rfl⟩, htells⟩ := progress_flushWith ctx reset c b
  have hentries : entries ⟨ctx, reset, c, b⟩ = told := by
    rw [entries, after, hjournal, List.drop_left]
  have hsets : Flush.sets ⟨ctx, reset, c, b⟩ = setsIn sent := by
    rw [Flush.sets, after, hsent, List.drop_left]
  rw [hentries, hsets]
  refine ⟨⟨hjournal, fun hcounter => ?_⟩, _, htells⟩
  rw [htells.mentions hcounter]
  exact counters_flushWith ctx reset c b hcounter

end Flush

def Stage.asFlush? (ctx : Context) : Stage (Watched σ) → Option (Flush σ)
  | .flush reset c b => some ⟨ctx, reset, c, b⟩
  | .number | .queue _ _ | .force _ | .execute _ _ _ | .clear _ | .adjust => none

def flushesOf (ctx : Context) (stages : List (Stage (Watched σ))) : List (Flush σ) :=
  stages.filterMap (Stage.asFlush? ctx)

end Coordinator

/-- The journal and the counters have grown, and what marks flushes in the journal is what the
flushes have told. -/
def Backing.Grown {σ : Type} [Store σ] (before after : Backing (Watched σ))
    (flushes : List (Coordinator.Flush σ)) : Prop :=
  ∃ told, before.Logged after told ∧
    marks told = flushes.flatMap (fun flush => marks flush.entries)

namespace Backing.Grown

variable {σ : Type} [Store σ] {before middle after : Backing (Watched σ)}
  {flushes others : List (Coordinator.Flush σ)}

theorem refl (b : Backing (Watched σ)) : b.Grown b [] :=
  ⟨[], .refl b, rfl⟩

theorem trans (h : before.Grown middle flushes) (h' : middle.Grown after others) :
    before.Grown after (flushes ++ others) := by
  obtain ⟨told, hlogged, hmarks⟩ := h
  obtain ⟨rest, hrest, hmarks'⟩ := h'
  exact ⟨told ++ rest, hlogged.trans hrest, by
    rw [marks_append, hmarks, hmarks', List.flatMap_append]⟩

theorem note (h : before.Grown after flushes) {entry : Entry} (haside : entry.IsAside) :
    before.Grown (after.note entry) flushes := by
  obtain ⟨told, hlogged, hmarks⟩ := h
  refine ⟨told ++ [entry], hlogged.note haside, ?_⟩
  rw [marks_append, hmarks, marks_of_asides (List.forall_mem_singleton.2 haside), List.append_nil]

theorem of_event {entry : Entry} (event : Event) (hevent : entry.event? = some event)
    (hmark : event.marksFlush = false) (b : Backing (Watched σ)) :
    b.Grown ((b.count event.advance).note entry) [] := by
  refine ⟨[entry], .of_event hevent b, ?_⟩
  simp [marks, Entry.marksFlush, hevent, hmark]

theorem flush (flush : Coordinator.Flush σ) : flush.backing.Grown flush.after [flush] :=
  ⟨flush.entries, flush.tells.1, (List.append_nil _).symm⟩

theorem executeNow
    (registry : Registry) (fetch : Bool) (request : Request) (b : Backing (Watched σ)) :
    b.Grown (b.executeNow registry fetch request).2 [] := by
  obtain ⟨told, hlogged, hmarks⟩ := b.logged_executeNow registry fetch request
  exact ⟨told, hlogged, hmarks⟩

end Backing.Grown

namespace Coordinator

variable {σ : Type} [Store σ] {ctx : Context}

/-- Each move is logged, and marks a flush only if it is one. -/
theorem Move.grown
    {stage : Stage (Watched σ)} {m next : Moment (Watched σ)} (hmove : Move ctx stage m next) :
    m.backing.Grown next.backing (flushesOf ctx [stage]) := by
  cases hmove with
  | flush given reset c b => exact .flush ⟨ctx, reset, c, b⟩
  | number | adjust => exact .refl _
  | statement s c b => exact .of_event .queued rfl rfl b
  | member record group c b | entrant record depth c b => exact .of_event .queued rfl rfl b
  | force given root c b => exact .of_event .resetForced rfl rfl b
  | execute given request c b => exact .executeNow ctx.registry c.policy.fetchKeys request b
  | clear given c b => exact Backing.Grown.note (.refl b) (isAside_cleared ctx.transaction)

theorem Path.grown
    {stages : List (Stage (Watched σ))} {m last : Moment (Watched σ)}
    (hpath : Path ctx stages m last) : m.backing.Grown last.backing (flushesOf ctx stages) := by
  induction hpath with
  | nil m => exact .refl m.backing
  | @cons stage stages m next last hmove _ ih =>
      have hsplit : flushesOf ctx (stage :: stages) =
          flushesOf ctx [stage] ++ flushesOf ctx stages :=
        @List.filterMap_append _ _ [stage] stages (Stage.asFlush? ctx)
      rw [hsplit]
      exact hmove.grown.trans ih

theorem grown_perform
    (ctx : Context) (operation : Operation) (c : Coordinator) (b : Backing (Watched σ)) :
    b.Grown (perform ctx operation c b).2.2 (flushesOf ctx (stages ctx operation c b)) := by
  obtain ⟨last, hpath⟩ := path_stages ctx false operation c b
  exact hpath.grown

theorem grown_discard (ctx : Context) (c : Coordinator) (b : Backing (Watched σ)) :
    b.Grown (c.discard ctx b).2 [] := by
  unfold discard
  split
  · exact Backing.Grown.note (.refl b) (isAside_cleared ctx.transaction)
  · exact .refl b

end Coordinator

/-! ## Transactions -/

namespace Transaction

open Coordinator (flushesOf)

variable {σ : Type} [Store σ] {t : Transaction} {operation : Operation}

theorem grown_completed
    {before b : Backing (Watched σ)} {flushes : List (Coordinator.Flush σ)}
    (h : before.Grown b flushes) (operation : Operation) (t : Transaction) :
    before.Grown (operation.completed t b).2 flushes := by
  cases operation with
  | commit => exact h.note (isAside_committed t.context.transaction)
  | enable | disable | save | run | runNow | flush | coordinate | push | pop | takeKeys
  | rollback => exact h

theorem grown_of_retired
    {errand : Coordinator.Operation} {flushes : List (Coordinator.Flush σ)}
    (hactive : t.state = .active) (hretires : operation.retires = true)
    (herrand : t.errand? operation = some errand) {b : Backing (Watched σ)}
    (h : b.Grown (t.retire b).2.2 flushes) : b.Grown (perform operation t b).2.2 flushes := by
  obtain ⟨-, hperform⟩ := perform_of_retired hactive hretires herrand b
  rw [hperform]
  rcases hretire : t.retire b with ⟨e | _, next, after⟩
  all_goals rw [hretire] at h
  · exact h
  · exact grown_completed h operation next

theorem grown_retire
    {c : Coordinator} (h : t.coordinator = some c) (b : Backing (Watched σ)) :
    b.Grown (t.retire b).2.2 [⟨t.context, false, c, b⟩] := by
  have hflush : b.Grown (c.flushWith t.context false b).2.2 [⟨t.context, false, c, b⟩] :=
    .flush ⟨t.context, false, c, b⟩
  unfold retire
  rw [h]
  simp only [Coordinator.flush]
  rcases hstep : c.flushWith t.context false b with ⟨e | totals, settled, after⟩
  all_goals rw [hstep] at hflush
  · exact hflush
  · exact hflush.trans (Coordinator.grown_discard t.context settled.takeKeys.2 after)

theorem grown_of_none
    (hnone : t.coordinator = none) (operation : Operation) (b : Backing (Watched σ)) :
    b.Grown (perform operation t b).2.2 [] := by
  have hexecute : ∀ request, b.Grown ((t.executeNow request b).andThen
      (fun outcome t b => (.ok (Coordinator.Reply.outcome outcome), t, b))).2.2 [] := by
    intro request
    rw [andThen_pure_snd]
    exact .executeNow t.context.registry true request b
  have hretire : b.Grown (t.retire b).2.2 [] := by
    rw [retire_of_none hnone]
    exact .refl b
  rcases hguarded : operation.guarded
  · obtain ⟨answer, next, hperform, -⟩ := perform_of_unguarded hnone hguarded b
    rw [hperform]
    exact .refl b
  · by_cases hactive : t.state = .active
    · cases operation with
      | enable policy =>
          rcases hpolicy : policy.check with cause | checked
          · rw [perform_of_rejected hactive hpolicy]
            exact .refl b
          · exact grown_of_retired hactive rfl (errand?_of_check hpolicy t) hretire
      | disable | commit => exact grown_of_retired hactive rfl rfl hretire
      | save record =>
          rw [perform, save, whileActive_of_active hactive]
          simp only [hnone]
          exact hexecute _
      | run statement =>
          rw [perform, run, whileActive_of_active hactive]
          simp only [hnone]
          exact hexecute _
      | runNow statement =>
          rw [perform, runNow, whileActive_of_active hactive]
          simp only [hnone]
          exact hexecute _
      | flush =>
          rw [perform, flush, whileActive_of_active hactive]
          simp only [hnone]
          exact .refl b
      | rollback =>
          rw [perform, rollback, whileActive_of_active hactive]
          simp only [hnone]
          exact Backing.Grown.note (.refl b) (isAside_rolledBack 0 t.context.transaction)
      | coordinate | push | pop | takeKeys => cases hguarded
    · rw [perform_of_ended hactive hguarded]
      exact .refl b

theorem grown_of_errand
    {c : Coordinator} {errand : Coordinator.Operation} (hactive : t.state = .active)
    (h : t.coordinator = some c) (herrand : t.errand? operation = some errand)
    (b : Backing (Watched σ)) :
    b.Grown (perform operation t b).2.2
      (flushesOf t.context (Coordinator.stages t.context errand c b)) := by
  have hretire : operation.retires = true → b.Grown (perform operation t b).2.2
      (flushesOf t.context (Coordinator.stages t.context errand c b)) := by
    intro hretires
    obtain ⟨rfl, -⟩ := perform_of_retired hactive hretires herrand b
    rw [Coordinator.stages_flush]
    exact grown_of_retired hactive hretires herrand (grown_retire h b)
  cases operation with
  | save | run | runNow | flush | coordinate =>
      rw [perform_of_lent hactive h rfl herrand]
      exact Coordinator.grown_perform t.context errand c b
  | enable | disable | commit => exact hretire rfl
  | takeKeys =>
      cases herrand
      exact .refl b
  | rollback =>
      cases herrand
      rw [perform, rollback, whileActive_of_active hactive]
      simp only [h]
      exact (Coordinator.grown_discard t.context c b).note
        (isAside_rolledBack (c.discard t.context b).1 t.context.transaction)
  | push | pop => cases herrand

theorem grown_perform
    (hended : t.state ≠ .active → t.coordinator = none) (operation : Operation)
    (b : Backing (Watched σ)) :
    b.Grown (perform operation t b).2.2 (flushesOf t.context (t.stages operation b)) := by
  rcases h : t.coordinator with _ | c
  · rw [stages_of_none h]
    exact grown_of_none h operation b
  · have hactive : t.state = .active := by
      by_contra hnot
      rw [hended hnot] at h
      cases h
    rcases herrand : t.errand? operation with _ | errand
    · rw [stages_of_no_errand herrand]
      cases operation with
      | push | pop => exact .refl b
      | enable policy =>
          rcases hpolicy : policy.check with cause | checked
          · rw [perform_of_rejected hactive hpolicy]
            exact .refl b
          · rw [errand?_of_check hpolicy] at herrand
            cases herrand
      | disable | save | run | runNow | flush | coordinate | takeKeys | commit | rollback =>
          cases herrand
    · rw [stages_of_errand h herrand]
      exact grown_of_errand hactive h herrand b

end Transaction

/-! ## Lines -/

namespace Journal

def reports (event : Event) (line : String) : Bool :=
  told? "event" line = some event.name

/-- The lines that report the beginning or an end of a flush. -/
def flushLines (lines : List String) : List String :=
  lines.filter (fun line => reports .flushBegun line || reports .flushCompleted line ||
    reports .flushFailed line)

theorem reports_text (event : Event) (entry : Entry) :
    reports event entry.text = decide (entry.event? = some event) := by
  rw [Bool.eq_iff_iff, reports, decide_eq_true_iff, decide_eq_true_iff, told?_event,
    Option.some_inj, Entry.name_eq_iff]

theorem countP_reports (event : Event) (entries : List Entry) :
    (entries.map Entry.text).countP (reports event) = mentions event entries := by
  rw [List.countP_map, mentions]
  exact List.countP_congr (fun entry _ => by rw [Function.comp_apply, reports_text])

theorem flushLines_text (entries : List Entry) :
    flushLines (entries.map Entry.text) = (marks entries).map Entry.text := by
  rw [flushLines, List.filter_map, marks]
  refine congrArg (List.map Entry.text) (List.filter_congr (fun entry _ => ?_))
  simp only [Function.comp_apply, reports_text, Entry.marksFlush]
  rcases entry.event? with _ | event
  · rfl
  · cases event <;> rfl

end Journal

namespace Coordinator

variable {σ : Type} [Store σ]

omit [Store σ] in
/-- The marks of a flush: none, a beginning and an end, or the failure alone. -/
theorem TellsFlush.marks_cases
    {transaction : String} {sets : Nat} {result : Except WriteError Totals} {told : List Entry}
    (h : TellsFlush transaction sets result told) :
    marks told = [] ∨
      (∃ groups rows, marks told =
        [.flushBegun groups transaction, .flushCompleted groups rows sets]) ∨
      (∃ groups code succeeded, marks told =
        [.flushBegun groups transaction, .flushFailed code succeeded transaction]) ∨
      ∃ code succeeded, marks told = [.flushFailed code succeeded transaction] := by
  have hnone : ∀ {asides between : List Entry} (entry : Entry) (groups : Nat),
      (∀ entry ∈ asides, entry.IsAside) → (∀ entry ∈ between, entry.IsAside) →
      marks (asides ++ (.flushBegun groups transaction :: between ++ [entry])) =
        .flushBegun groups transaction :: marks [entry] := by
    intro asides between entry groups hasides hbetween
    rw [marks_append, marks_of_asides hasides, List.nil_append, marks_append,
      ← List.singleton_append, marks_append, marks_of_asides hbetween, List.append_nil]
    rfl
  cases h with
  | quiet totals hasides => exact Or.inl (marks_of_asides hasides)
  | completed totals groups hasides hbetween =>
      exact Or.inr (Or.inl ⟨groups, totals.rows, hnone _ groups hasides hbetween⟩)
  | broken e groups hasides hbetween =>
      exact Or.inr (Or.inr (Or.inl ⟨groups, _, _, hnone _ groups hasides hbetween⟩))
  | failed e hasides =>
      refine Or.inr (Or.inr (Or.inr ⟨e.code, e.succeeded?.getD 0, ?_⟩))
      rw [marks_append, marks_of_asides hasides]
      rfl

theorem Flush.flushLines_cases
    {outlet : Outlet} (htrace : outlet.least = .trace) (flush : Flush σ) :
    (flushLines (outlet.lines flush.entries)).map (told? "event") ∈
        [[], [some "FLUSH_BEGIN", some "FLUSH_COMPLETE"],
          [some "FLUSH_BEGIN", some "FLUSH_FAILED"], [some "FLUSH_FAILED"]] ∧
      ∀ line ∈ outlet.lines flush.entries, told? "event" line = some "FLUSH_COMPLETE" →
        told? "statements" line = some (toString flush.sets) := by
  obtain ⟨result, htells⟩ := flush.tells.2
  have hmarks := htells.marks_cases
  rw [Outlet.lines_of_trace htrace]
  constructor
  · have htold : ∀ entries : List Entry, (entries.map Entry.text).map (told? "event") =
        entries.map (fun entry => some entry.name) := by
      simp [told?_event]
    rw [flushLines_text, htold]
    rcases hmarks with hmarks | ⟨groups, rows, hmarks⟩ | ⟨groups, code, succeeded, hmarks⟩ |
      ⟨code, succeeded, hmarks⟩
    all_goals
      rw [hmarks]
      simp [Entry.name, Entry.event?, Event.name]
  · intro line hmem hevent
    obtain ⟨entry, hentry, rfl⟩ := List.mem_map.1 hmem
    rw [told?_event, Option.some_inj] at hevent
    have hcompleted : entry.event? = some .flushCompleted := Entry.name_eq_iff.1 hevent
    have hmark : entry ∈ marks flush.entries := by
      refine List.mem_filter.2 ⟨hentry, ?_⟩
      rw [Entry.marksFlush, hcompleted]
      rfl
    rcases hmarks with hmarks | ⟨groups, rows, hmarks⟩ | ⟨groups, code, succeeded, hmarks⟩ |
      ⟨code, succeeded, hmarks⟩
    all_goals
      rw [hmarks] at hmark
      simp only [List.mem_cons, List.not_mem_nil, or_false] at hmark
    · rcases hmark with rfl | rfl
      · cases hcompleted
      · exact Entry.told?_of_mem (by simp [Entry.fields])
    · rcases hmark with rfl | rfl <;> cases hcompleted
    · cases hmark
      cases hcompleted

end Coordinator

/-! ## Runs -/

/-- Who writes to a store: a transaction, or a coordinator that no transaction owns. -/
inductive Writer where
  | transaction (t : Transaction)
  | coordinator (ctx : Context) (c : Coordinator)

/-- A run over one store, with counters and a journal that are new at the beginning: the flushes so
far, the writers and the backing.  At any time a writer may begin, an operation may be asked of one
that has begun, a coordinator without a transaction may be discarded, and the store may change. -/
inductive Logbook {σ : Type} [Store σ] :
    List (Coordinator.Flush σ) → List Writer → Backing (Watched σ) → Prop
  | new (store : Watched σ) : Logbook [] [] { store := store }
  | enter {flushes : List (Coordinator.Flush σ)} {writers : List Writer}
      {b : Backing (Watched σ)} (ctx : Context) : Logbook flushes writers b →
      Logbook flushes (writers ++ [.transaction (.new ctx)]) b
  | hire {flushes : List (Coordinator.Flush σ)} {writers : List Writer}
      {b : Backing (Watched σ)} (ctx : Context) (policy : Policy) : Logbook flushes writers b →
      Logbook flushes (writers ++ [.coordinator ctx (.new policy)]) b
  | transact {flushes : List (Coordinator.Flush σ)} {front back : List Writer} {t : Transaction}
      {b : Backing (Watched σ)} (operation : Transaction.Operation) :
      Logbook flushes (front ++ .transaction t :: back) b →
      Logbook (flushes ++ Coordinator.flushesOf t.context (t.stages operation b))
        (front ++ .transaction (Transaction.perform operation t b).2.1 :: back)
        (Transaction.perform operation t b).2.2
  | coordinate {flushes : List (Coordinator.Flush σ)} {front back : List Writer} {ctx : Context}
      {c : Coordinator} {b : Backing (Watched σ)} (operation : Coordinator.Operation) :
      Logbook flushes (front ++ .coordinator ctx c :: back) b →
      Logbook (flushes ++ Coordinator.flushesOf ctx (Coordinator.stages ctx operation c b))
        (front ++ .coordinator ctx (Coordinator.perform ctx operation c b).2.1 :: back)
        (Coordinator.perform ctx operation c b).2.2
  | discard {flushes : List (Coordinator.Flush σ)} {front back : List Writer} {ctx : Context}
      {c : Coordinator} {b : Backing (Watched σ)} :
      Logbook flushes (front ++ .coordinator ctx c :: back) b →
      Logbook flushes (front ++ back) (c.discard ctx b).2
  | change {flushes : List (Coordinator.Flush σ)} {writers : List Writer}
      {b : Backing (Watched σ)} (store : Watched σ) : Logbook flushes writers b →
      Logbook flushes writers { b with store := store }

namespace Logbook

variable {σ : Type} [Store σ] {flushes : List (Coordinator.Flush σ)} {writers : List Writer}
  {b : Backing (Watched σ)}

theorem sound (h : Logbook flushes writers b) :
    ∀ t, .transaction t ∈ writers → Transaction.Sound t.context t := by
  induction h with
  | new => exact fun t hmem => nomatch hmem
  | enter ctx _ ih =>
      intro t hmem
      rcases List.mem_append.1 hmem with hmem | hmem
      · exact ih t hmem
      · cases List.mem_singleton.1 hmem
        exact Transaction.Reachable.new.sound
  | hire ctx policy _ ih =>
      intro t hmem
      rcases List.mem_append.1 hmem with hmem | hmem
      · exact ih t hmem
      · cases List.mem_singleton.1 hmem
  | @transact flushes front back t b operation _ ih =>
      intro other hmem
      rcases List.mem_append.1 hmem with hmem | hmem
      · exact ih other (List.mem_append_left _ hmem)
      · rcases List.mem_cons.1 hmem with hsame | hmem
        · cases hsame
          have hnext := (ih t (by simp)).step operation b
          rw [hnext.context]
          exact hnext
        · exact ih other (by simp [hmem])
  | coordinate operation _ ih =>
      intro other hmem
      rcases List.mem_append.1 hmem with hmem | hmem
      · exact ih other (List.mem_append_left _ hmem)
      · rcases List.mem_cons.1 hmem with hsame | hmem
        · cases hsame
        · exact ih other (by simp [hmem])
  | discard _ ih =>
      intro other hmem
      rcases List.mem_append.1 hmem with hmem | hmem
      · exact ih other (List.mem_append_left _ hmem)
      · exact ih other (by simp [hmem])
  | change _ _ ih => exact ih

/-- What the journal tells and the counters count at the end of a run, from its beginning. -/
theorem grown (h : Logbook flushes writers b) :
    ∃ store, Backing.Grown { store := store } b flushes := by
  induction h with
  | new store => exact ⟨store, .refl _⟩
  | enter _ _ ih | hire _ _ _ ih => exact ih
  | transact operation hrun ih =>
      obtain ⟨store, hgrown⟩ := ih
      exact ⟨store, hgrown.trans
        (Transaction.grown_perform (hrun.sound _ (by simp)).ended operation _)⟩
  | coordinate operation _ ih =>
      obtain ⟨store, hgrown⟩ := ih
      exact ⟨store, hgrown.trans (Coordinator.grown_perform _ operation _ _)⟩
  | discard _ ih =>
      obtain ⟨store, hgrown⟩ := ih
      refine ⟨store, ?_⟩
      simpa using hgrown.trans (Coordinator.grown_discard _ _ _)
  | change store _ ih =>
      obtain ⟨begun, told, hlogged, hmarks⟩ := ih
      exact ⟨begun, told, ⟨hlogged.journal, hlogged.counted⟩, hmarks⟩

/-- The log, the counters and the run agree.  As many lines as each of four counters counts report
what the counter counts.  The lines that report the beginning or an end of a flush are those of the
flushes of the run, one flush after the other, and each flush has none, a beginning and an end, or
its failure alone.  A line that reports the end of a flush tells how many parameter sets the flush
has sent, those of statements included. -/
theorem log_agrees
    (h : Logbook flushes writers b) {outlet : Outlet} (htrace : outlet.least = .trace) :
    ((outlet.lines b.journal).countP (reports .queued) = b.metrics.queued ∧
      (outlet.lines b.journal).countP (reports .executedNow) = b.metrics.executedNow ∧
      (outlet.lines b.journal).countP (reports .resetForced) = b.metrics.forcedResets ∧
      (outlet.lines b.journal).countP (reports .flushFailed) = b.metrics.flushFailures) ∧
    flushLines (outlet.lines b.journal) =
      flushes.flatMap (fun flush => flushLines (outlet.lines flush.entries)) ∧
    ∀ flush ∈ flushes,
      (flushLines (outlet.lines flush.entries)).map (told? "event") ∈
          [[], [some "FLUSH_BEGIN", some "FLUSH_COMPLETE"],
            [some "FLUSH_BEGIN", some "FLUSH_FAILED"], [some "FLUSH_FAILED"]] ∧
        ∀ line ∈ outlet.lines flush.entries, told? "event" line = some "FLUSH_COMPLETE" →
          told? "statements" line = some (toString flush.sets) := by
  obtain ⟨store, told, hlogged, hmarks⟩ := h.grown
  have hjournal : b.journal = told := hlogged.journal
  have hcounted : ∀ {event : Event} {counter : Metrics → Nat},
      event.counter? = some counter → counter {} = 0 →
      (outlet.lines b.journal).countP (reports event) = counter b.metrics := by
    intro event counter hcounter hzero
    rw [Outlet.lines_of_trace htrace, countP_reports, hjournal, hlogged.counted hcounter, hzero,
      Nat.zero_add]
  refine ⟨⟨hcounted rfl rfl, hcounted rfl rfl, hcounted rfl rfl, hcounted rfl rfl⟩, ?_,
    fun flush _ => flush.flushLines_cases htrace⟩
  simp only [Outlet.lines_of_trace htrace, flushLines_text, hjournal, hmarks, List.map_flatMap]

theorem coordinateAll
    {ctx : Context} {c : Coordinator} (operations : List Coordinator.Operation)
    (h : Logbook flushes [.coordinator ctx c] b) :
    Logbook (flushes ++ Coordinator.flushesOf ctx (Coordinator.performAll ctx operations c b).1)
      [.coordinator ctx (Coordinator.performAll ctx operations c b).2.1]
      (Coordinator.performAll ctx operations c b).2.2 := by
  induction operations generalizing flushes c b with
  | nil => simpa [Coordinator.performAll, Coordinator.flushesOf] using h
  | cons operation rest ih =>
      have hfirst := ih (@coordinate σ _ flushes [] [] ctx c b operation h)
      simpa [Coordinator.performAll, Coordinator.flushesOf] using hfirst

def orderly : Context :=
  ⟨.ofList [{ root := ⟨"order"⟩, table := "orders" }], "t", true⟩

/-- A statement and a record wait side by side and are flushed, and then nothing is. -/
def mixed : List Coordinator.Operation :=
  [.submit (.statement ⟨"x", []⟩) true, .submit (.record (.new ⟨"order"⟩ .insert)) true,
    .flush false, .flush true]

def mixing : List (Coordinator.Stage (Watched Memory)) × Coordinator × Backing (Watched Memory) :=
  Coordinator.performAll orderly mixed (.new { flushOnMixed := false }) Coordinator.untouched

theorem logbook_mixing :
    Logbook (Coordinator.flushesOf orderly mixing.1) [.coordinator orderly mixing.2.1]
      mixing.2.2 := by
  have hnew : Logbook [] [] Coordinator.untouched := .new _
  exact coordinateAll mixed (.hire orderly { flushOnMixed := false } hnew)

/-- The first flush tells of both parameter sets in its last line; the second one has no line. -/
theorem log_agrees_of_mixing :
    Logbook (Coordinator.flushesOf orderly mixing.1) [.coordinator orderly mixing.2.1]
        mixing.2.2 ∧
      (({ least := .trace } : Outlet).lines mixing.2.2.journal).countP (reports .queued) = 2 ∧
      (Coordinator.flushesOf orderly mixing.1).map Coordinator.Flush.sets = [2, 0] ∧
      ∀ flush ∈ Coordinator.flushesOf orderly mixing.1,
        ∀ line ∈ ({ least := .trace } : Outlet).lines flush.entries,
          told? "event" line = some "FLUSH_COMPLETE" →
            told? "statements" line = some (toString flush.sets) := by
  obtain ⟨⟨hqueued, -, -, -⟩, -, hflushes⟩ :=
    logbook_mixing.log_agrees (rfl : ({ least := .trace } : Outlet).least = .trace)
  exact ⟨logbook_mixing, hqueued.trans rfl, rfl, fun flush hmem => (hflushes flush hmem).2⟩

end Logbook

end Cascade
