import Cascade.Buffer.Execution
import Cascade.Dictionary

/-!
# Buffered statements with an index

The groups of buffered statements lie in slots, and an index leads from a text to
the slot of its group, so that no group has to be searched for when a statement is
appended.  The parameter sets of a group and the requests behind them are two lists
that are kept in step.
-/

namespace Cascade

open Json

/-- The parameter sets that wait for one text, beside the requests that they belong to. -/
structure IndexedGroup where
  text : String
  isInsert : Bool
  /-- The parameter sets, in the order in which they came. -/
  params : List (List Datum)
  /-- The request behind each parameter set, if there is one. -/
  origins : List (Option RequestId)
  deriving DecidableEq, Repr

namespace IndexedGroup

def size (group : IndexedGroup) : Nat :=
  group.params.length

def add (params : List Datum) (origin : Option RequestId) (group : IndexedGroup) : IndexedGroup :=
  { group with params := group.params ++ [params], origins := group.origins ++ [origin] }

/-- What the call of a group has executed when the store answers it. -/
def totals (group : IndexedGroup) (answer : BatchResult) : Totals :=
  ⟨group.size, sumOf answer.rowCounts,
    (group.origins.zip answer.keys).filterMap
      (fun pair => pair.1.map (fun id => (id, pair.2)))⟩

end IndexedGroup

/-- Statements that wait, grouped by text, with the slot of each text. -/
structure IndexedBatch where
  /-- The groups, in the order in which their texts first came. -/
  groups : List IndexedGroup
  /-- The slots of the groups, by their texts. -/
  index : Dictionary String Nat

/-- Make the call of each group in turn, adding to what has been executed before. -/
def executeSlots {σ : Type} [Store σ] (fetch : Bool) :
    List IndexedGroup → Totals → σ → Except WriteError Totals × σ
  | [], done, store => (.ok done, store)
  | group :: rest, done, store =>
      match Store.executeBatch group.text group.params (fetch && group.isInsert) store with
      | (.ok answer, after) => executeSlots fetch rest (done.add (group.totals answer)) after
      | (.error e, after) => (.error (.ofStore group.text done.statements e), after)

namespace IndexedBatch

def empty : IndexedBatch := ⟨[], ∅⟩

/-- The slot of a text; a text that the index does not know gets an empty group behind the others. -/
def slotFor (text : String) (isInsert : Bool) (batch : IndexedBatch) : Nat × IndexedBatch :=
  match batch.index.get? text with
  | some slot => (slot, batch)
  | none =>
      (batch.groups.length,
        ⟨batch.groups ++ [⟨text, isInsert, [], []⟩], batch.index.insert text batch.groups.length⟩)

/-- Append a statement, and tell how many parameter sets wait for its text then; `none` if the index
leads to a slot in which there is no group. -/
def append (statement : Statement) (origin : Option RequestId) (batch : IndexedBatch) :
    Option (Nat × IndexedBatch) :=
  let (slot, opened) := batch.slotFor (normalText statement.text) statement.isInsert
  opened.groups[slot]?.map (fun group =>
    let grown := group.add statement.params origin
    (grown.size, { opened with groups := opened.groups.set slot grown }))

def size (batch : IndexedBatch) : Nat :=
  sumOf (batch.groups.map IndexedGroup.size)

def isEmpty (batch : IndexedBatch) : Bool :=
  batch.groups.isEmpty

/-- Execute all statements that wait; nothing waits afterwards, whether or not that failed. -/
def flush {σ : Type} [Store σ] (fetch : Bool) (batch : IndexedBatch) (store : σ) :
    Except WriteError Totals × IndexedBatch × σ :=
  let (result, after) := executeSlots fetch batch.groups {} store
  (result, .empty, after)

/-- Discard all statements that wait. -/
def clear (_ : IndexedBatch) : IndexedBatch :=
  .empty

end IndexedBatch

end Cascade
