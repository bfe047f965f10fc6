import Cascade.Buffer.Execution
import Cascade.Request

/-!
# Buffered records

The record writes of one root type wait in one group, in the order in which
they came.  A group is executed through a batch of statements: consecutive
writes that bind to one text make up a run, and a run is cut into calls of at
most the batch size.  `RecordGroup.plan` lists those calls.
-/

namespace Cascade

/-- The record writes of one root type that wait. -/
structure RecordGroup where
  /-- The root type. -/
  root : RootType
  /-- The place of the group among the others. -/
  depth : Int
  /-- How many groups were opened before this one. -/
  sequence : Nat
  /-- The writes with their requests, in the order in which they came. -/
  pending : List (RequestId × Record)
  deriving DecidableEq

/-- The calls that groups of records lead to.

A write that cannot be bound ends the plan; what had been gathered by then has
not become part of a call. -/
structure Plan where
  calls : List StatementGroup
  refusal : Option WriteError
  gathered : StatementBatch

namespace Plan

def empty : Plan := ⟨[], none, .empty⟩

def after (calls : List StatementGroup) (plan : Plan) : Plan :=
  { plan with calls := calls ++ plan.calls }

/-- Make the calls of a plan, adding to what has been executed before. -/
def execute {σ : Type} [Store σ] (fetch : Bool) (plan : Plan) (done : Totals) (store : σ) :
    Except WriteError Totals × σ :=
  match executeGroups fetch plan.calls done store with
  | (.error e, last) => (.error e, last)
  | (.ok totals, last) =>
      match plan.refusal with
      | some e => (.error e, last)
      | none => (.ok totals, last)

end Plan

namespace RecordGroup

def new (root : RootType) (depth : Int) (sequence : Nat) : RecordGroup :=
  ⟨root, depth, sequence, []⟩

def size (group : RecordGroup) : Nat :=
  group.pending.length

def isEmpty (group : RecordGroup) : Bool :=
  group.pending.isEmpty

/-- The group with one more write at its end. -/
def append (id : RequestId) (record : Record) (group : RecordGroup) : RecordGroup :=
  { group with pending := group.pending ++ [(id, record)] }

def drained (group : RecordGroup) : RecordGroup :=
  { group with pending := [] }

/-- The order in which groups are executed: by depth, and at one depth by age. -/
def order (a b : RecordGroup) : Ordering :=
  (compare a.depth b.depth).then (compare a.sequence b.sequence)

def precedes (a b : RecordGroup) : Bool :=
  a.order b == .lt

/-- A group in short: its root type, its depth and its size. -/
def label (group : RecordGroup) : String :=
  group.root.name ++ "@" ++ toString group.depth ++ "[" ++ toString group.size ++ "]"

/-- The calls of writes, given what has been gathered and the run that it ends with.

The run has the normal text `text?` and `run` writes; a write with another text,
or one that the run has no room for, first turns what was gathered into calls. -/
def planAfter (registry : Registry) (batchSize : Nat) :
    List (RequestId × Record) → StatementBatch → Option String → Nat → Plan
  | [], gathered, _, _ => ⟨gathered.groups, none, .empty⟩
  | (id, record) :: rest, gathered, text?, run =>
      match registry.bind record with
      | .error e => ⟨[], some e, gathered⟩
      | .ok statement =>
          let text := normalText statement.text
          if run = batchSize ∨ text?.any (· != text) then
            (planAfter registry batchSize rest
              (StatementBatch.empty.append statement (some id)).2 (some text) 1).after
              gathered.groups
          else
            planAfter registry batchSize rest
              (gathered.append statement (some id)).2 (some text) (run + 1)

/-- The calls of a group, behind statements that are gathered already.

A batch size of zero counts as one. -/
def plan (registry : Registry) (batchSize : Nat) (gathered : StatementBatch)
    (group : RecordGroup) : Plan :=
  planAfter registry (max batchSize 1) group.pending gathered none 0

/-- Execute the writes of a group behind statements that are gathered already.

No write waits in the group afterwards, whether or not that failed. -/
def execute {σ : Type} [Store σ] (registry : Registry) (batchSize : Nat) (fetch : Bool)
    (group : RecordGroup) (gathered : StatementBatch) (store : σ) :
    Except WriteError Totals × RecordGroup × StatementBatch × σ :=
  let plan := group.plan registry batchSize gathered
  match executeGroups fetch plan.calls {} store with
  | (.error e, last) => (.error e, group.drained, .empty, last)
  | (.ok totals, last) =>
      match plan.refusal with
      | some e => (.error e, group.drained, plan.gathered, last)
      | none => (.ok totals, group.drained, plan.gathered, last)

end RecordGroup

/-- The calls of several groups, one group after the other. -/
def planGroups (registry : Registry) (batchSize : Nat) : List RecordGroup → Plan
  | [] => .empty
  | group :: rest =>
      let plan := group.plan registry batchSize .empty
      match plan.refusal with
      | some _ => plan
      | none => (planGroups registry batchSize rest).after plan.calls

end Cascade
