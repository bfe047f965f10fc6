import Cascade.Coordinator.Submit

/-!
# Transactions

A transaction writes through one store.  While batching is enabled it owns a
coordinator; otherwise every write is executed at once.  It keeps the depth of
the walk through the records that are being saved, and the keys that retired
coordinators have left.
-/

namespace Cascade

/-- The life of a transaction. -/
inductive TransactionState where
  | active
  | committed
  | rolledBack
  deriving DecidableEq, Repr, Inhabited

def TransactionState.name : TransactionState → String
  | .active => "active"
  | .committed => "committed"
  | .rolledBack => "rolled_back"

/-- A unit of work over one store. -/
structure Transaction where
  /-- What a coordinator has to know of the transaction. -/
  context : Context
  coordinator : Option Coordinator := none
  /-- The depth of the walk through the records that are being saved. -/
  depth : Int := 0
  state : TransactionState := .active
  keys : GeneratedKeys := ∅

namespace Transaction

variable {σ : Type}

def new (context : Context) : Transaction := { context := context }

def isBatching (t : Transaction) : Bool :=
  t.coordinator.isSome

def whileActive {α : Type} (t : Transaction) (b : Backing σ)
    (action : Transaction → Backing σ → Step Transaction σ α) : Step Transaction σ α :=
  match t.state with
  | .active => action t b
  | _ => (.error .discarded, t, b)

/-- Let the coordinator of a transaction take a step. -/
def lift {α : Type} (t : Transaction) (step : Step Coordinator σ α) : Step Transaction σ α :=
  match step with
  | (result, c, b) => (result, { t with coordinator := some c }, b)

def executeNow [Store σ] (request : Request) (t : Transaction) (b : Backing σ) :
    Step Transaction σ Outcome :=
  let (result, after) := b.executeNow t.context.registry true request
  (result, t, after)

/-- Flush the coordinator and let it go, keeping its keys. -/
def retire [Store σ] (t : Transaction) (b : Backing σ) : Step Transaction σ Unit :=
  match t.coordinator with
  | none => (.ok (), t, b)
  | some c =>
      match c.flush t.context b with
      | (.error e, c, b) => (.error e, { t with coordinator := some c }, b)
      | (.ok _, c, b) =>
          let (keys, c) := c.takeKeys
          let (_, b) := c.discard t.context b
          (.ok (), { t with coordinator := none, keys := t.keys.insertAll keys.entries }, b)

/-- Begin to buffer writes; a coordinator that is there is flushed and replaced. -/
def enableBatching [Store σ] (policy : Policy) (t : Transaction) (b : Backing σ) :
    Step Transaction σ Unit :=
  t.whileActive b (fun t b =>
    match policy.check with
    | .error cause => (.error (.policy cause), t, b)
    | .ok policy =>
        (t.retire b).andThen (fun _ t b =>
          (.ok (), { t with coordinator := some (.new policy) }, b)))

/-- Flush what is buffered and execute every write at once from now on. -/
def disableBatching [Store σ] (t : Transaction) (b : Backing σ) : Step Transaction σ Unit :=
  t.whileActive b retire

def push (t : Transaction) : Transaction := { t with depth := t.depth + 1 }

def pop (t : Transaction) : Transaction := { t with depth := t.depth - 1 }

/-- Save a record at the present depth of the cascade. -/
def save [Store σ] (record : Record) (t : Transaction) (b : Backing σ) :
    Step Transaction σ Outcome :=
  t.whileActive b (fun t b =>
    let record := record.withDepth t.depth
    match t.coordinator with
    | some c => t.lift (c.submitRecord t.context record true b)
    | none => t.executeNow (.record record) b)

def run [Store σ] (statement : Statement) (t : Transaction) (b : Backing σ) :
    Step Transaction σ Outcome :=
  t.whileActive b (fun t b =>
    match t.coordinator with
    | some c => t.lift (c.submitStatement t.context statement true b)
    | none => t.executeNow (.statement statement) b)

/-- Run a statement at once, after everything that is buffered. -/
def runNow [Store σ] (statement : Statement) (t : Transaction) (b : Backing σ) :
    Step Transaction σ Outcome :=
  t.whileActive b (fun t b =>
    match t.coordinator with
    | some c => t.lift (c.submitStatement t.context statement false b)
    | none => t.executeNow (.statement statement) b)

/-- Flush what is buffered; without batching there is nothing to flush. -/
def flush [Store σ] (t : Transaction) (b : Backing σ) : Step Transaction σ Totals :=
  t.whileActive b (fun t b =>
    match t.coordinator with
    | some c => t.lift (c.flush t.context b)
    | none => (.ok {}, t, b))

/-- Flush what is buffered and end the transaction.

When the flush fails the transaction stays active, with nothing buffered. -/
def commit [Store σ] (t : Transaction) (b : Backing σ) : Step Transaction σ Unit :=
  t.whileActive b (fun t b =>
    (t.retire b).andThen (fun _ t b =>
      (.ok (), { t with state := .committed }, b.note (.committed t.context.transaction))))

def rollback (t : Transaction) (b : Backing σ) : Step Transaction σ Unit :=
  t.whileActive b (fun t b =>
    let (discarded, b) :=
      match t.coordinator with
      | some c => c.discard t.context b
      | none => (0, b)
    (.ok (), { t with coordinator := none, state := .rolledBack },
      b.note (.rolledBack discarded t.context.transaction)))

/-- Hand over the generated keys of everything flushed so far. -/
def takeKeys (t : Transaction) : GeneratedKeys × Transaction :=
  match t.coordinator with
  | some c =>
      let (keys, c) := c.takeKeys
      (t.keys.insertAll keys.entries, { t with keys := ∅, coordinator := some c })
  | none => (t.keys, { t with keys := ∅ })

end Transaction

end Cascade
