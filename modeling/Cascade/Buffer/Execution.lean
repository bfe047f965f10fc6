import Cascade.Buffer.Statements
import Cascade.Store.Basic

/-!
# Execution of buffered statements

Each group of buffered statements is one batch call.  Calls are made in order
until one is refused; the failure then counts every statement that was
executed before it, those of earlier calls included.
-/

namespace Cascade

open Json

/-- What a number of calls has executed. -/
structure Totals where
  statements : Nat := 0
  rows : Nat := 0
  /-- The keys that the store generated, with the requests they belong to, in order. -/
  keys : List (RequestId × Datum) := []
  deriving DecidableEq, Repr, Inhabited

namespace Totals

def add (a b : Totals) : Totals :=
  ⟨a.statements + b.statements, a.rows + b.rows, a.keys ++ b.keys⟩

end Totals

namespace StatementGroup

/-- The keys of a call with the requests they belong to; the key of no request is dropped. -/
def keysOf (waiting : List Waiting) (keys : List Datum) : List (RequestId × Datum) :=
  (waiting.zip keys).filterMap (fun pair => pair.1.origin.map (fun id => (id, pair.2)))

/-- What the call of a group has executed when the store answers it. -/
def totals (group : StatementGroup) (answer : BatchResult) : Totals :=
  ⟨group.size, sumOf answer.rowCounts, keysOf group.waiting answer.keys⟩

end StatementGroup

/-- Make the call of each group in turn, adding to what has been executed before.

Generated keys are asked for where `fetch` is set and the text is an insert. -/
def executeGroups {σ : Type} [Store σ] (fetch : Bool) :
    List StatementGroup → Totals → σ → Except WriteError Totals × σ
  | [], done, store => (.ok done, store)
  | group :: rest, done, store =>
      match Store.executeBatch group.text group.paramSets (fetch && group.isInsert) store with
      | (.ok answer, after) => executeGroups fetch rest (done.add (group.totals answer)) after
      | (.error e, after) => (.error (.ofStore group.text done.statements e), after)

/-- Execute all statements that wait; nothing waits afterwards, whether or not that failed. -/
def StatementBatch.flush {σ : Type} [Store σ] (fetch : Bool) (batch : StatementBatch) (store : σ) :
    Except WriteError Totals × StatementBatch × σ :=
  let (result, after) := executeGroups fetch batch.groups {} store
  (result, .empty, after)

end Cascade
