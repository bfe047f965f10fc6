import Cascade.Buffer.Window
import Cascade.Journal.Entry
import Cascade.Metrics
import Cascade.Policy

/-!
# Coordinators

A coordinator buffers the writes of one transaction and pushes them to the
store in an order that respects how records refer to each other.  It acts on a
`Backing`: the store, with the counters and the journal that observe it.
-/

namespace Cascade

open Journal

/-- What a coordinator knows of the transaction it works for. -/
structure Context where
  registry : Registry
  transaction : String
  /-- Whether each flush of records is summarised in the journal. -/
  summarise : Bool

/-- A store with the counters and the journal that observe it. -/
structure Backing (σ : Type) where
  store : σ
  metrics : Metrics := {}
  journal : List Entry := []

namespace Backing

variable {σ : Type}

def note (entry : Entry) (b : Backing σ) : Backing σ :=
  { b with journal := b.journal ++ [entry] }

def count (advance : Metrics → Metrics) (b : Backing σ) : Backing σ :=
  { b with metrics := advance b.metrics }

def executeNow [Store σ] (registry : Registry) (fetch : Bool) (request : Request)
    (b : Backing σ) : Except WriteError Outcome × Backing σ :=
  match request.execute registry fetch b.store with
  | (.error e, store) => (.error e, { b with store := store })
  | (.ok outcome, store) =>
      (.ok outcome,
        (({ b with store := store }.count Metrics.countExecutedNow).count
          (Metrics.addStatements 1)).note (.executedNow request.name))

end Backing

/-- What a step of an owner over a backing leads to: its result, the owner and the backing. -/
abbrev Step (γ σ α : Type) := Except WriteError α × γ × Backing σ

def Step.andThen {γ σ α β : Type} (step : Step γ σ α) (next : α → γ → Backing σ → Step γ σ β) :
    Step γ σ β :=
  match step with
  | (.ok a, owner, backing) => next a owner backing
  | (.error e, owner, backing) => (.error e, owner, backing)

/-- The buffers of a transaction, and what is remembered between flushes. -/
structure Coordinator where
  /-- When buffered writes are pushed to the store. -/
  policy : Policy
  /-- The statements that wait. -/
  statements : StatementBatch := .empty
  /-- The groups of record writes. -/
  window : Window := ∅
  /-- The depth of the deepest group since the last reset. -/
  maxDepth : Int := 0
  /-- The size of the largest group since the last flush. -/
  highWater : Nat := 0
  /-- How many requests were given a number. -/
  requests : Nat := 0
  /-- How many groups were opened. -/
  opened : Nat := 0
  /-- The generated keys that have not been handed over. -/
  keys : GeneratedKeys := ∅

/-- Whether something waits in a coordinator. -/
inductive Phase where
  | idle
  | accumulating
  deriving DecidableEq, Repr

def Phase.name : Phase → String
  | .idle => "idle"
  | .accumulating => "accumulating"

namespace Coordinator

def new (policy : Policy) : Coordinator := { policy := policy }

/-- Change the batch size; a size below two is ignored. -/
def setBatchSize (size : Nat) (c : Coordinator) : Coordinator :=
  if 1 < size then { c with policy := { c.policy with batchSize := size } } else c

/-- Change whether inserts ask for generated keys; without a choice nothing changes. -/
def setFetchKeys (choice : Option Bool) (c : Coordinator) : Coordinator :=
  match choice with
  | some fetch => { c with policy := { c.policy with fetchKeys := fetch } }
  | none => c

/-- Change whether statements and records may wait side by side. -/
def setFlushOnMixed (flush : Bool) (c : Coordinator) : Coordinator :=
  { c with policy := { c.policy with flushOnMixed := flush } }

def isEmpty (c : Coordinator) : Bool :=
  c.statements.isEmpty && c.window.isDrained

def phase (c : Coordinator) : Phase :=
  if c.isEmpty then .idle else .accumulating

def bufferedRecords (c : Coordinator) : Nat :=
  c.window.buffered

def pending (c : Coordinator) : Nat :=
  c.statements.size + c.bufferedRecords

def buffered (root : RootType) (c : Coordinator) : Nat :=
  match c.window.get? root with
  | some group => group.size
  | none => 0

/-- The depth of the group of a root type, if it has one. -/
def groupDepth? (root : RootType) (c : Coordinator) : Option Int :=
  (c.window.get? root).map RecordGroup.depth

/-- The key that the store generated for a request, if it is held. -/
def generatedKey? (id : RequestId) (c : Coordinator) : Option Json.Datum :=
  c.keys.get? id

def takeKeys (c : Coordinator) : GeneratedKeys × Coordinator :=
  (c.keys, { c with keys := ∅ })

def wiped (c : Coordinator) : Coordinator :=
  { c with statements := .empty, window := ∅, maxDepth := 0, highWater := 0 }

def clear {σ : Type} (ctx : Context) (c : Coordinator) (b : Backing σ) :
    Coordinator × Backing σ :=
  (c.wiped, b.note (.cleared ctx.transaction))

/-- End the life of a coordinator: drop what waits and tell how much that was. -/
def discard {σ : Type} (ctx : Context) (c : Coordinator) (b : Backing σ) : Nat × Backing σ :=
  if 0 < c.pending then (c.pending, (c.clear ctx b).2) else (c.pending, b)

end Coordinator

end Cascade
