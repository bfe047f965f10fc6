import Cascade.CommandLine.Reply
import Cascade.Proofs.ReadBack
import Mathlib.Data.List.Forall2

/-!
# What a report says

A report goes out as a JSON object.  What it says is laid down here by the
values that its paths lead to, in the texts and numbers that a reader finds
there; `tellsRun_toValue` and `tellsFailure_toValue` show that reports are written
so.
-/

namespace Cascade

open Json

namespace Json.Value

/-- The value that a path of keys leads to. -/
def at? : List String → Value → Option Value
  | [], value => some value
  | key :: rest, .object members => (Assoc.get? key members).bind (at? rest)
  | _ :: _, _ => none

theorem at?_ofMembers
    {members : List (String × Value)} (h : (members.map Prod.fst).Nodup) (key : String)
    (rest : List String) :
    (ofMembers members).at? (key :: rest) = (Assoc.get? key members).bind (at? rest) := by
  rw [ofMembers, at?, Assoc.get?_collect h]

end Json.Value

namespace Replay

/-! ## Reports -/

/-- The word for the state of a transaction. -/
inductive StateWord : TransactionState → String → Prop
  | active : StateWord .active "active"
  | committed : StateWord .committed "committed"
  | rolledBack : StateWord .rolledBack "rolled_back"

/-- The code of a failure. -/
inductive FailureCode : WriteError → String → Prop
  | execution (statement : String) (succeeded : Nat) (message : String) :
      FailureCode (.execution statement succeeded message) "BATCH_EXECUTION_FAILED"
  | unknownRoot (root : RootType) : FailureCode (.unknownRoot root) "BATCH_UNKNOWN_ROOT_TYPE"
  | discarded : FailureCode .discarded "BATCH_DISCARDED"
  | policy (cause : PolicyError) : FailureCode (.policy cause) "BATCH_CONFIG_INVALID"

/-- What an item of a report says of an executed statement. -/
structure TellsExecuted (value : Value) (entry : Executed) : Prop where
  text : value.at? ["sql"] = some (.string entry.text)
  params : value.at? ["params"] = some (.array (entry.params.map Datum.value))
  single : entry.batch = none → value.at? ["batch"] = some .null
  batch : ∀ number, entry.batch = some number → value.at? ["batch"] = some (.ofNat number)

/-- What a report says of the transaction, of what was executed and of the counters. -/
structure TellsRun (value : Value) (transaction : String) (state : TransactionState)
    (executed : List Executed) (batchSizes : List Nat) (metrics : Metrics) : Prop where
  transaction : value.at? ["transaction"] = some (.string transaction)
  state : ∃ word, StateWord state word ∧ value.at? ["state"] = some (.string word)
  executed : ∃ items, value.at? ["executed"] = some (.array items) ∧
    List.Forall₂ TellsExecuted items executed
  batchSizes : value.at? ["batch_sizes"] = some (.array (batchSizes.map .ofNat))
  /-- A counter is shown in 64 bits. -/
  counters : ∀ key counter,
    (key, counter) ∈ [("requests_queued", metrics.queued),
      ("requests_executed_now", metrics.executedNow), ("flushes", metrics.flushes),
      ("forced_resets", metrics.forcedResets), ("statements_executed", metrics.statements),
      ("flush_failures", metrics.flushFailures)] →
    value.at? ["metrics", key] = some (.ofNat (counter % Nat.pow 2 64))

/-- What a report says of the failure of the operation with the given number. -/
structure TellsFailure (value : Value) (number : Nat) (cause : WriteError) : Prop where
  operation : value.at? ["error", "op"] = some (.ofNat number)
  code : ∃ code, FailureCode cause code ∧ value.at? ["error", "code"] = some (.string code)
  message : value.at? ["error", "message"] = some (.string cause.message)
  succeeded : ∀ statement count message, cause = .execution statement count message →
    value.at? ["error", "succeeded"] = some (.ofNat count)
  uncounted : (∀ statement count message, cause ≠ .execution statement count message) →
    value.at? ["error", "succeeded"] = some .null

/-- The statements that are counted and those that the failure counts make up the statements that
are listed. -/
def Accounted (value : Value) : Prop :=
  ∃ statements succeeded items,
    value.at? ["metrics", "statements_executed"] = some (.ofNat (statements % Nat.pow 2 64)) ∧
    (value.at? ["error", "succeeded"] = some (.ofNat succeeded) ∨
      succeeded = 0 ∧ ∀ count, value.at? ["error", "succeeded"] ≠ some (.ofNat count)) ∧
    value.at? ["executed"] = some (.array items) ∧ statements + succeeded = items.length

theorem stateWord_name (state : TransactionState) : StateWord state state.name := by
  cases state with
  | active => exact .active
  | committed => exact .committed
  | rolledBack => exact .rolledBack

theorem failureCode_code (cause : WriteError) : FailureCode cause cause.code := by
  cases cause with
  | execution => exact .execution _ _ _
  | unknownRoot => exact .unknownRoot _
  | discarded => exact .discarded
  | policy => exact .policy _

theorem tellsExecuted_executedValue (entry : Executed) :
    TellsExecuted (executedValue entry) entry := by
  have hat (key : String) : (executedValue entry).at? [key] =
      (Assoc.get? key [("sql", .string entry.text), ("params", .ofData entry.params),
        ("batch", .ofOption .ofNat entry.batch)]).bind (Value.at? []) :=
    Value.at?_ofMembers (by simp) key []
  refine ⟨hat "sql", hat "params", fun hnone => ?_, fun number hsome => ?_⟩
  · rw [hat, hnone]
    rfl
  · rw [hat, hsome]
    rfl

theorem at?_metricsValue
    (metrics : Metrics) {key : String} {counter : Nat}
    (h : (key, counter) ∈ [("requests_queued", metrics.queued),
      ("requests_executed_now", metrics.executedNow), ("flushes", metrics.flushes),
      ("forced_resets", metrics.forcedResets), ("statements_executed", metrics.statements),
      ("flush_failures", metrics.flushFailures)]) :
    (metricsValue metrics).at? [key] = some (.ofNat (counter % Nat.pow 2 64)) := by
  rw [metricsValue, Value.at?_ofMembers (by simp)]
  simp only [List.mem_cons, Prod.mk.injEq, List.not_mem_nil, or_false] at h
  rcases h with ⟨rfl, rfl⟩ | ⟨rfl, rfl⟩ | ⟨rfl, rfl⟩ | ⟨rfl, rfl⟩ | ⟨rfl, rfl⟩ | ⟨rfl, rfl⟩ <;> rfl

theorem at?_stopValue (stop : Stop) (key : String) :
    (stopValue stop).at? [key] =
      (Assoc.get? key [("op", .ofNat stop.operation), ("code", .string stop.cause.code),
        ("message", .string stop.cause.message),
        ("succeeded", .ofOption .ofNat stop.cause.succeeded?)]).bind (Value.at? []) :=
  Value.at?_ofMembers (by simp) key []

namespace Report

/-- The members of a report. -/
theorem at?_toValue (report : Report) (key : String) (rest : List String) :
    report.toValue.at? (key :: rest) =
      (Assoc.get? key [
        ("transaction", .string report.transaction),
        ("state", .string report.state.name),
        ("executed", .array (report.executed.map executedValue)),
        ("batch_sizes", .array (report.batchSizes.map .ofNat)),
        ("summary", .array (report.summary.map .string)),
        ("metrics", metricsValue report.metrics),
        ("error", .ofOption stopValue report.stop)]).bind (Value.at? rest) :=
  Value.at?_ofMembers (by simp) key rest

theorem at?_metrics (report : Report) (path : List String) :
    report.toValue.at? ("metrics" :: path) = (metricsValue report.metrics).at? path :=
  report.at?_toValue "metrics" path

theorem tellsRun_toValue (report : Report) :
    TellsRun report.toValue report.transaction report.state report.executed report.batchSizes
      report.metrics where
  transaction := report.at?_toValue "transaction" []
  state := ⟨_, stateWord_name report.state, report.at?_toValue "state" []⟩
  executed := by
    refine ⟨_, report.at?_toValue "executed" [], ?_⟩
    rw [List.forall₂_map_left_iff, List.forall₂_same]
    exact fun entry _ => tellsExecuted_executedValue entry
  batchSizes := report.at?_toValue "batch_sizes" []
  counters := by
    intro key counter hmem
    rw [report.at?_metrics]
    exact at?_metricsValue report.metrics hmem

theorem at?_error
    {report : Report} {stop : Stop} (h : report.stop = some stop) (path : List String) :
    report.toValue.at? ("error" :: path) = (stopValue stop).at? path := by
  rw [at?_toValue, h]
  rfl

theorem tellsFailure_toValue {report : Report} {stop : Stop} (h : report.stop = some stop) :
    TellsFailure report.toValue stop.operation stop.cause where
  operation := by
    rw [at?_error h, at?_stopValue]
    rfl
  code := by
    refine ⟨_, failureCode_code stop.cause, ?_⟩
    rw [at?_error h, at?_stopValue]
    rfl
  message := by
    rw [at?_error h, at?_stopValue]
    rfl
  succeeded := by
    intro statement count message hcause
    rw [at?_error h, at?_stopValue, hcause]
    rfl
  uncounted := by
    intro hcause
    rw [at?_error h, at?_stopValue]
    cases heq : stop.cause with
    | execution statement count message => exact absurd heq (hcause _ _ _)
    | unknownRoot | discarded | policy => rfl

theorem at?_error_of_none {report : Report} (h : report.stop = none) :
    report.toValue.at? ["error"] = some .null := by
  rw [at?_toValue, h]
  rfl

/-- Nothing but the name depends on how the transaction is called. -/
theorem at?_toValue_renamed
    (report : Report) (name : String) {key : String} (h : key ≠ "transaction")
    (rest : List String) :
    ({ report with transaction := name } : Report).toValue.at? (key :: rest) =
      report.toValue.at? (key :: rest) := by
  rw [at?_toValue, at?_toValue]
  simp only [Assoc.get?, Ne.symm h, if_false]

end Report

end Replay

namespace CommandLine

/-- A reply that hands over a value: it exits with zero and writes one line with the value. -/
structure Reply.HandsOver (reply : Reply) (value : Value) : Prop where
  exit : reply.exit = 0
  output : ∃ answer : Value, reply.output = [answer.render] ∧
    answer.at? ["status"] = some (.string "ok") ∧ answer.at? ["data"] = some value

theorem handsOver_replayReply
    {config script : Place} {path transaction : String} {report : Replay.Report}
    {journal : List Journal.Entry}
    (h : replay config path script transaction = .ok (report, journal)) (verbose : Bool) :
    (replayReply config path script verbose transaction).HandsOver report.toValue := by
  have hat (key : String) : (successValue report.toValue).at? [key] =
      (Assoc.get? key [("status", .string "ok"), ("data", report.toValue)]).bind (Value.at? []) :=
    Value.at?_ofMembers (by simp) key []
  rw [replayReply, h]
  exact ⟨rfl, _, rfl, hat "status", hat "data"⟩

end CommandLine

end Cascade
