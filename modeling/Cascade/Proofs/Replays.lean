import Cascade.Proofs.Balances
import Cascade.Proofs.Ending
import Cascade.Proofs.Renaming
import Cascade.Proofs.Reports

/-!
# Replays

A replay of a script under a setup that can be used always ends with a report.
The first operation that fails ends the script, and the report depends on the
operations up to that one alone; those behind it need not even be the same.
What the report counts is what the store has executed.  All of this is said of
the JSON value that the program writes.
-/

namespace Cascade.Replay

open Transaction (Sound)

/-! ## Operations of a script -/

/-- What an operation of a script asks of the transaction. -/
def Operation.asked : Operation → Transaction.Operation
  | .save record => .save record
  | .run statement true => .runNow statement
  | .run statement false => .run statement
  | .push => .push
  | .pop => .pop
  | .flush => .flush
  | .commit => .commit
  | .rollback => .rollback

section Applying

variable {σ : Type} [Store σ]

omit [Store σ] in
theorem Operation.ignore_andThen {α β : Type} (step : Step Transaction σ α) (answer : α → β) :
    ignore (step.andThen (fun a t b => (.ok (answer a), t, b))) = ignore step := by
  rcases step with ⟨e | a, t, b⟩ <;> rfl

omit [Store σ] in
theorem Operation.ignore_unit (step : Step Transaction σ Unit) : ignore step = step := by
  rcases step with ⟨e | _, t, b⟩ <;> rfl

/-- To apply an operation of a script is to perform what it asks for, whatever the answer is. -/
theorem Operation.apply_eq (operation : Operation) (t : Transaction) (b : Backing σ) :
    operation.apply t b = ignore (Transaction.perform operation.asked t b) := by
  cases operation with
  | save record => exact (ignore_andThen _ _).symm
  | run statement now => cases now <;> exact (ignore_andThen _ _).symm
  | push | pop => rfl
  | flush => exact (ignore_andThen _ _).symm
  | commit => exact (ignore_unit _).symm.trans (ignore_andThen _ _).symm
  | rollback => exact (ignore_unit _).symm.trans (ignore_andThen _ _).symm

/-- Operations that are applied one after the other can be cut in two. -/
theorem applyAll_append
    (number : Nat) (front rest : List Operation) (t : Transaction) (b : Backing σ) :
    applyAll number (front ++ rest) t b =
      match applyAll number front t b with
      | (none, t, b) => applyAll (number + front.length) rest t b
      | (some stop, t, b) => (some stop, t, b) := by
  induction front generalizing number t b with
  | nil => rfl
  | cons operation front ih =>
      simp only [List.cons_append, applyAll]
      rcases operation.apply t b with ⟨e | _, next, after⟩
      · rfl
      · simp only [ih, List.length_cons, Nat.add_assoc, Nat.add_comm 1]

end Applying

/-! ## What is counted -/

/-- How many statements were executed in front of the one that ended the script, if one did. -/
def counted (stop : Option Stop) : Nat :=
  (stop.bind (fun stop => stop.cause.succeeded?)).getD 0

section Counting

variable {ctx : Context} {t : Transaction}

/-- Operations of a script keep a transaction sound, and the store records what the counters and the
failure that ends the script count. -/
theorem applyAll_accounts
    (h : Sound ctx t) (number : Nat) (operations : List Operation) (b : Backing Memory) :
    Sound ctx (applyAll number operations t b).2.1 ∧
      (applyAll number operations t b).2.2.metrics.statements +
          counted (applyAll number operations t b).1 + b.store.executed.length =
        (applyAll number operations t b).2.2.store.executed.length + b.metrics.statements := by
  induction operations generalizing number t b with
  | nil => exact ⟨h, Nat.add_comm _ _⟩
  | cons operation rest ih =>
      have hstep := h.step operation.asked b
      obtain ⟨haccounts, -⟩ := h.accounts operation.asked b
      simp only [applyAll, Operation.apply_eq, Transaction.Deed.uncounted] at haccounts ⊢
      rcases hperform : Transaction.perform operation.asked t b with ⟨e | answer, next, after⟩
      all_goals rw [hperform] at hstep haccounts
      · exact ⟨hstep, haccounts⟩
      · obtain ⟨hsound, hrest⟩ := ih hstep (number + 1) after
        refine ⟨hsound, ?_⟩
        simp only [uncounted_ok, Operation.ignore, Step.andThen] at haccounts hrest ⊢
        omega

/-- An operation that fails leaves the transaction in its state. -/
theorem state_of_failed
    (h : Sound ctx t) {operation : Operation} {b after : Backing Memory} {e : WriteError}
    {next : Transaction} (hfail : operation.apply t b = (.error e, next, after)) :
    next.state = t.state := by
  have hleads := Transaction.leads_perform h.ended operation.asked b
  rw [Operation.apply_eq] at hfail
  generalize Transaction.perform operation.asked t b = result at hleads hfail
  cases hleads with
  | refused | rejected | failed =>
      cases hfail
      rfl
  | idle | done => cases hfail
  | executed request =>
      rcases hexecuted : b.executeNow t.context.registry true request with ⟨e' | outcome, last⟩
      all_goals
        rw [hexecuted] at hfail
        cases hfail
      rfl

/-- The closing rollback ends a transaction that is still active, and nothing else. -/
theorem rollBackIfActive_cases (t : Transaction) (b : Backing Memory) :
    (rollBackIfActive t b).1.state = (if t.state = .active then .rolledBack else t.state) ∧
      (rollBackIfActive t b).1.context = t.context ∧
      (rollBackIfActive t b).2.store = b.store ∧ (rollBackIfActive t b).2.metrics = b.metrics := by
  by_cases hactive : t.state = .active
  · obtain ⟨-, hstate, -, hstore, hmetrics⟩ := Transaction.perform_rollback hactive b
    have hrollback : rollBackIfActive t b = (Transaction.perform .rollback t b).2 := by
      rw [rollBackIfActive, hactive, Transaction.perform, Transaction.andThen_pure_snd]
    rw [hrollback, if_pos hactive]
    refine ⟨hstate, ?_, hstore, hmetrics⟩
    rw [Transaction.perform, Transaction.andThen_pure_snd, Transaction.rollback,
      Transaction.whileActive_of_active hactive]
  · have hsame : rollBackIfActive t b = (t, b) := by
      unfold rollBackIfActive
      split
      · next heq => exact absurd heq hactive
      · rfl
    rw [hsame, if_neg hactive]
    exact ⟨rfl, rfl, rfl, rfl⟩

end Counting

/-! ## The opening -/

def Setup.context (setup : Setup) (transaction : String) : Context :=
  ⟨setup.registry, transaction, setup.summarise⟩

def Setup.opened (setup : Setup) (transaction : String) : Transaction :=
  { context := setup.context transaction, coordinator := setup.policy.map .new }

def Setup.backing (setup : Setup) : Backing Memory :=
  { store := setup.store }

theorem Setup.fault?_of_file
    {content : Option (List UInt8)} {setup : Setup} (h : ofFile content = .ok setup) :
    setup.fault? = none := by
  unfold ofFile at h
  split at h
  · cases h
  · split at h
    · cases h
    · split at h
      · cases h
      · next hnone =>
        cases h
        exact hnone

theorem begin_of_fault?
    {setup : Setup} (h : setup.fault? = none) (transaction : String) :
    begin setup transaction = (.ok (), setup.opened transaction, setup.backing) := by
  unfold Setup.fault? at h
  split at h
  · cases h
  · next hpolicy =>
    unfold begin Setup.opened Setup.backing
    rcases hp : setup.policy with _ | policy
    · rfl
    · rw [hp, Option.bind_some] at hpolicy
      have hcheck : policy.check = .ok policy := by
        rw [Policy.check, hpolicy]
      simp only [Transaction.enableBatching, Transaction.whileActive, Transaction.new, hcheck]
      rfl

theorem Setup.sound_opened (setup : Setup) (transaction : String) :
    Sound (setup.context transaction) (setup.opened transaction) := by
  have hfresh : (setup.opened transaction).Fresh := by
    unfold Setup.opened
    rcases setup.policy with _ | policy
    · exact Or.inl rfl
    · exact Or.inr ⟨rfl, policy, rfl⟩
  exact .of_fresh rfl hfresh

/-! ## The name of the transaction -/

theorem Operation.apply_renamed {σ : Type} [Store σ]
    (name : String) (operation : Operation) (t : Transaction) (b : Backing σ) :
    operation.apply (t.renamed name) (b.renamed name) =
      Transaction.stepRenamed name (operation.apply t b) := by
  rw [apply_eq, apply_eq, Transaction.perform_renamed]
  exact Step.via_andThen (fun _ _ _ => rfl)

theorem applyAll_renamed {σ : Type} [Store σ]
    (name : String) (number : Nat) (operations : List Operation) (t : Transaction) (b : Backing σ) :
    applyAll number operations (t.renamed name) (b.renamed name) =
      ((applyAll number operations t b).1, (applyAll number operations t b).2.1.renamed name,
        (applyAll number operations t b).2.2.renamed name) := by
  induction operations generalizing number t b with
  | nil => rfl
  | cons operation rest ih =>
      simp only [applyAll, Operation.apply_renamed]
      rcases operation.apply t b with ⟨e | _, next, after⟩
      · rfl
      · exact ih (number + 1) next after

theorem rollBackIfActive_renamed
    (name : String) (t : Transaction) (b : Backing Memory) :
    rollBackIfActive (t.renamed name) (b.renamed name) =
      ((rollBackIfActive t b).1.renamed name, (rollBackIfActive t b).2.renamed name) := by
  have hrollback := Transaction.rollback_renamed name t b
  have hstate : (t.renamed name).state = t.state := rfl
  unfold rollBackIfActive
  rw [hstate, hrollback]
  split <;> rfl

theorem runScript_renamed
    (name : String) (operations : List Operation) (t : Transaction) (b : Backing Memory) :
    runScript operations (t.renamed name) (b.renamed name) =
      ((runScript operations t b).1, (runScript operations t b).2.1.renamed name,
        (runScript operations t b).2.2.renamed name) := by
  simp only [runScript, applyAll_renamed]
  rcases applyAll 1 operations t b with ⟨_ | stop, last, after⟩
  · rfl
  · simp only [rollBackIfActive_renamed]

theorem reportOn_renamed
    (name : String) (stop : Option Stop) (t : Transaction) (b : Backing Memory) :
    reportOn stop (t.renamed name) (b.renamed name) =
      { reportOn stop t b with transaction := name } := by
  simp only [reportOn, Backing.renamed, Journal.summaries_renamed]
  rfl

/-! ## Reports -/

def Setup.report (setup : Setup) (operations : List Operation) (transaction : String) : Report :=
  let (stop, t, b) := runScript operations (setup.opened transaction) setup.backing
  reportOn stop t b

/-- A replay under a setup that can be used ends with a report. -/
theorem exists_perform
    {setup : Setup} (h : setup.fault? = none) (operations : List Operation) (transaction : String) :
    ∃ journal, perform setup operations transaction =
      .ok (setup.report operations transaction, journal) := by
  rw [perform, begin_of_fault? h transaction]
  exact ⟨_, rfl⟩

/-- Apart from the name, the report does not depend on how the transaction is called. -/
theorem Setup.report_renamed
    (setup : Setup) (operations : List Operation) (transaction name : String) :
    setup.report operations name =
      { setup.report operations transaction with transaction := name } := by
  have hopened : setup.opened name = (setup.opened transaction).renamed name := rfl
  have hbacking : setup.backing = setup.backing.renamed name := rfl
  unfold Setup.report
  rw [hopened, hbacking, runScript_renamed]
  exact reportOn_renamed name _ _ _

section Failing

variable {setup : Setup} {transaction : String} {front : List Operation} {operation : Operation}
  {t next : Transaction} {b after : Backing Memory} {cause : WriteError}

/-- The first operation that fails ends the script: nothing behind it has a part in the report. -/
theorem Setup.report_of_failed
    (hfront : applyAll 1 front (setup.opened transaction) setup.backing = (none, t, b))
    (hfail : operation.apply t b = (.error cause, next, after)) (rest : List Operation) :
    setup.report (front ++ operation :: rest) transaction =
      reportOn (some ⟨front.length + 1, cause⟩) (rollBackIfActive next after).1
        (rollBackIfActive next after).2 := by
  have happlied : applyAll 1 (front ++ operation :: rest) (setup.opened transaction) setup.backing =
      (some ⟨front.length + 1, cause⟩, next, after) := by
    rw [applyAll_append, hfront]
    simp only [applyAll, hfail, Nat.add_comm 1]
  rw [Setup.report, runScript, happlied]

theorem Setup.sound_of_succeeded
    (hfront : applyAll 1 front (setup.opened transaction) setup.backing = (none, t, b)) :
    Sound (setup.context transaction) t := by
  have hsound := (applyAll_accounts (setup.sound_opened transaction) 1 front setup.backing).1
  rw [hfront] at hsound
  exact hsound

end Failing

/-- A report counts what was executed. -/
theorem Setup.report_accounts
    (setup : Setup) (operations : List Operation) (transaction : String) :
    (setup.report operations transaction).metrics.statements +
        counted (setup.report operations transaction).stop =
      (setup.report operations transaction).executed.length := by
  obtain ⟨-, haccounts⟩ :=
    applyAll_accounts (setup.sound_opened transaction) 1 operations setup.backing
  have hstart : setup.backing.store.executed = [] ∧ setup.backing.metrics.statements = 0 := by
    unfold Setup.backing Setup.store
    rcases setup.failAt with _ | position <;> exact ⟨rfl, rfl⟩
  rw [hstart.1, hstart.2] at haccounts
  unfold Setup.report runScript
  rcases happlied : applyAll 1 operations (setup.opened transaction) setup.backing with
    ⟨_ | stop, last, after⟩
  all_goals rw [happlied] at haccounts
  · exact haccounts
  · obtain ⟨-, -, hstore, hmetrics⟩ := rollBackIfActive_cases last after
    simp only [reportOn, hstore, hmetrics]
    exact haccounts

theorem exists_replay
    {config script : CommandLine.Place} {path : String} {setup : Setup}
    {operations : List Operation} (hsetup : Setup.ofFile config.content? = .ok setup)
    (hscript : CommandLine.readOperations path script = .ok operations) (transaction : String) :
    ∃ journal, CommandLine.replay config path script transaction =
      .ok (setup.report operations transaction, journal) := by
  obtain ⟨journal, hperform⟩ :=
    exists_perform (Setup.fault?_of_file hsetup) operations transaction
  refine ⟨journal, ?_⟩
  simp only [CommandLine.replay, hsetup, hscript, hperform]

theorem Setup.transaction_report
    (setup : Setup) (operations : List Operation) (transaction : String) :
    (setup.report operations transaction).transaction = transaction :=
  congrArg Report.transaction (setup.report_renamed operations transaction transaction)

theorem Report.accounted_toValue
    {report : Report}
    (h : report.metrics.statements + counted report.stop = report.executed.length) :
    Accounted report.toValue := by
  have hcounter : report.toValue.at? ["metrics", "statements_executed"] =
      some (.ofNat (report.metrics.statements % Nat.pow 2 64)) :=
    report.tellsRun_toValue.counters _ _ (by simp)
  refine ⟨_, counted report.stop, _, hcounter, ?_, report.at?_toValue "executed" [],
    by simpa using h⟩
  rcases hstop : report.stop with _ | ⟨number, cause⟩
  · refine Or.inr ⟨rfl, fun count => ?_⟩
    rw [at?_toValue, hstop]
    exact nofun
  · have htells := tellsFailure_toValue hstop
    cases cause with
    | execution statement count message => exact Or.inl (htells.succeeded _ _ _ rfl)
    | unknownRoot | discarded | policy =>
        refine Or.inr ⟨rfl, fun count => ?_⟩
        rw [htells.uncounted (fun _ _ _ => nofun)]
        exact nofun

/-- A replay under a setup that can be used, of a script that can be read, ends with a report, which
the program writes as one line, and the report counts what was executed.  If every operation
succeeds it tells what they led to.  Otherwise it names the first that fails, with its error, and
what was executed and counted up to there.  A transaction that this operation met active is rolled
back; one that had ended stays as it was.  Any script that agrees up to this operation has the same
report, but for the name of the transaction. -/
theorem stops_at_first_failure
    {config script : CommandLine.Place} {path : String} {setup : Setup}
    {operations : List Operation} (hsetup : Setup.ofFile config.content? = .ok setup)
    (hscript : CommandLine.readOperations path script = .ok operations) (transaction : String) :
    ∃ report journal,
      CommandLine.replay config path script transaction = .ok (report, journal) ∧
      (∀ verbose, (CommandLine.replayReply config path script verbose transaction).HandsOver
        report.toValue) ∧
      Accounted report.toValue ∧
      (∀ t b, applyAll 1 operations (setup.opened transaction) setup.backing = (none, t, b) →
        report = reportOn none t b ∧
          TellsRun report.toValue transaction t.state b.store.executed b.store.batchSizes
            b.metrics ∧
          report.toValue.at? ["error"] = some .null) ∧
      ∀ front operation rest t b cause next after,
        operations = front ++ operation :: rest →
        applyAll 1 front (setup.opened transaction) setup.backing = (none, t, b) →
        operation.apply t b = (.error cause, next, after) →
          report = { reportOn (some ⟨front.length + 1, cause⟩) next after with
            state := if t.state = .active then .rolledBack else t.state
            summary := report.summary } ∧
          TellsRun report.toValue transaction
            (if t.state = .active then .rolledBack else t.state) after.store.executed
            after.store.batchSizes after.metrics ∧
          TellsFailure report.toValue (front.length + 1) cause ∧
          ∀ otherPath otherScript otherRest name,
            CommandLine.readOperations otherPath otherScript =
                .ok (front ++ operation :: otherRest) →
              ∃ other otherJournal,
                CommandLine.replay config otherPath otherScript name = .ok (other, otherJournal) ∧
                other = { report with transaction := name } ∧
                ∀ key path, key ≠ "transaction" →
                  other.toValue.at? (key :: path) = report.toValue.at? (key :: path) := by
  obtain ⟨journal, hreplay⟩ := exists_replay hsetup hscript transaction
  have htells := (setup.report operations transaction).tellsRun_toValue
  rw [setup.transaction_report] at htells
  refine ⟨_, journal, hreplay, CommandLine.handsOver_replayReply hreplay,
    Report.accounted_toValue (setup.report_accounts operations transaction), ?completed, ?failed⟩
  case completed =>
    intro t b happlied
    have hreport : setup.report operations transaction = reportOn none t b := by
      rw [Setup.report, runScript, happlied]
    rw [hreport] at htells ⊢
    exact ⟨rfl, htells, Report.at?_error_of_none rfl⟩
  case failed =>
    intro front operation rest t b cause next after hoperations hfront hfail
    subst hoperations
    have hreport := Setup.report_of_failed hfront hfail
    have hstate := state_of_failed (Setup.sound_of_succeeded hfront) hfail
    obtain ⟨hended, hcontext, hstore, hmetrics⟩ := rollBackIfActive_cases next after
    rw [hstate] at hended
    have hsame : setup.report (front ++ operation :: rest) transaction =
        { reportOn (some ⟨front.length + 1, cause⟩) next after with
          state := if t.state = .active then .rolledBack else t.state
          summary := (setup.report (front ++ operation :: rest) transaction).summary } := by
      rw [hreport rest]
      simp only [reportOn, hended, hcontext, hstore, hmetrics]
    refine ⟨hsame, ?run, Report.tellsFailure_toValue (congrArg Report.stop hsame), ?other⟩
    case run =>
      rw [hsame] at htells ⊢
      exact htells
    case other =>
      intro otherPath otherScript otherRest name hother
      obtain ⟨otherJournal, hotherReplay⟩ := exists_replay hsetup hother name
      rw [setup.report_renamed _ transaction, hreport otherRest, ← hreport rest] at hotherReplay
      exact ⟨_, otherJournal, hotherReplay, rfl,
        fun key path hkey => Report.at?_toValue_renamed _ name hkey path⟩

/-- Batching over a store that refuses the third statement. -/
def refusingSetup : Setup :=
  ⟨some {}, false, [{ root := ⟨"a"⟩, table := "t" }], some 3⟩

def gathering : List Operation :=
  [.save (.new ⟨"a"⟩ .insert), .run ⟨"x", []⟩ false, .run ⟨"x", []⟩ false, .run ⟨"x", []⟩ false]

def gathered : Transaction × Backing Memory :=
  (applyAll 1 gathering (refusingSetup.opened "t") refusingSetup.backing).2

def refused : Transaction × Backing Memory :=
  (Operation.flush.apply gathered.1 gathered.2).2

def refusing : CommandLine.Place :=
  .file ("\x7b\"batch\":\x7b\x7d,\"fail_at\":3,".toUTF8.toList ++
    "\"descriptors\":[\x7b\"root\":\"a\",\"table\":\"t\"\x7d]\x7d".toUTF8.toList)

/-- What was gathered is flushed and committed. -/
def flushing : CommandLine.Place :=
  .file ("\x7b\"op\":\"save\",\"record\":".toUTF8.toList ++
    "\x7b\"root\":\"a\",\"kind\":\"insert\"\x7d\x7d\n".toUTF8.toList ++
    (List.replicate 3 "\x7b\"op\":\"sql\",\"sql\":\"x\"\x7d\n".toUTF8.toList).flatten ++
    "\x7b\"op\":\"flush\"\x7d\n\x7b\"op\":\"commit\"\x7d".toUTF8.toList)

/-- The first statement flushes the record.  The flush in the fifth line fails behind the first of
the statements, and there the replay ends. -/
theorem stops_at_first_failure_of_refusing :
    ∃ report journal,
      CommandLine.replay refusing "s" flushing "t" = .ok (report, journal) ∧
      (CommandLine.replayReply refusing "s" flushing false "t").HandsOver report.toValue ∧
      report.toValue.at? ["error", "op"] = some (.ofNat 5) ∧
      report.toValue.at? ["error", "code"] = some (.string "BATCH_EXECUTION_FAILED") ∧
      report.toValue.at? ["error", "succeeded"] = some (.ofNat 1) ∧
      report.toValue.at? ["state"] = some (.string "rolled_back") ∧
      report.toValue.at? ["batch_sizes"] = some (.array [.ofNat 1, .ofNat 3]) ∧
      report.toValue.at? ["metrics", "statements_executed"] = some (.ofNat 1) ∧
      ∃ items, report.toValue.at? ["executed"] = some (.array items) ∧
        items.map (Json.Value.at? ["sql"]) =
          [some (.string "insert into t () values ()"), some (.string "x")] := by
  have hsetup : Setup.ofFile refusing.content? = .ok refusingSetup := by
    decide +kernel
  have hscript : CommandLine.readOperations "s" flushing =
      .ok (gathering ++ .flush :: [.commit]) := by
    decide +kernel
  have hfront : applyAll 1 gathering (refusingSetup.opened "t") refusingSetup.backing =
      (none, gathered.1, gathered.2) :=
    Prod.ext (by decide +kernel) rfl
  have hfail : Operation.flush.apply gathered.1 gathered.2 =
      (.error (.execution "x" 1 (Memory.refusal 3)), refused.1, refused.2) :=
    Prod.ext (by decide +kernel) rfl
  have hactive : gathered.1.state = .active := by decide +kernel
  have hexecuted : refused.2.store.executed =
      [⟨"insert into t () values ()", [], some 0⟩, ⟨"x", [], some 1⟩] := by
    decide +kernel
  have hsizes : refused.2.store.batchSizes = [1, 3] := by decide +kernel
  have hcounted : refused.2.metrics.statements = 1 := by decide +kernel
  obtain ⟨report, journal, hreplay, hreply, -, -, hfailed⟩ :=
    stops_at_first_failure hsetup hscript "t"
  obtain ⟨-, hrun, hfailure, -⟩ := hfailed _ _ _ _ _ _ _ _ rfl hfront hfail
  rw [if_pos hactive, hexecuted, hsizes] at hrun
  obtain ⟨code, hcode, hcodeat⟩ := hfailure.code
  obtain ⟨word, hword, hwordat⟩ := hrun.state
  obtain ⟨items, hitems, htold⟩ := hrun.executed
  have hstatements := hrun.counters "statements_executed" refused.2.metrics.statements (by simp)
  rw [hcounted] at hstatements
  cases hcode
  cases hword
  refine ⟨report, journal, hreplay, hreply false, hfailure.operation, hcodeat,
    hfailure.succeeded _ _ _ rfl, hwordat, hrun.batchSizes, hstatements, items, hitems, ?_⟩
  have htexts := List.forall₂_map_left_iff.2 (List.forall₂_map_right_iff.2
    (htold.imp (fun _ _ h => h.text)))
  exact List.forall₂_eq_eq_eq ▸ htexts

end Cascade.Replay
