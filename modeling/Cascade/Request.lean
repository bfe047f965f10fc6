import Cascade.Record.Descriptor
import Cascade.Store.Basic

/-!
# Requests

A request is a record write or a statement.  It binds to the statement that is
executed, and it can be executed at once; whether it gets that chance or is
buffered is for a `Coordinator` to say.
-/

namespace Cascade

open Json

/-- A request to write. -/
inductive Request where
  | record (record : Record)
  | statement (statement : Statement)
  deriving DecidableEq

/-- What became of a request. -/
inductive Outcome where
  /-- It was executed; the rows it touched are known. -/
  | executed (rows : Nat) (key : Option Datum)
  | queued (id : RequestId)
  deriving DecidableEq, Repr

/-- The statement of a record write, if its root type is known. -/
def Registry.bind (registry : Registry) (record : Record) : Except WriteError Statement :=
  match registry.get? record.root with
  | some d => .ok (d.bind record)
  | none => .error (.unknownRoot record.root)

namespace Request

/-- The root type of a record write; a statement has none. -/
def root? : Request → Option RootType
  | .record r => some r.root
  | .statement _ => none

def name : Request → String
  | .record r => r.kind.name
  | .statement _ => "statement"

def bind (registry : Registry) : Request → Except WriteError Statement
  | .record r => registry.bind r
  | .statement s => .ok s

/-- Execute a request at once, asking for a generated key where an insert may have one. -/
def execute {σ : Type} [Store σ] (registry : Registry) (fetch : Bool) (request : Request)
    (store : σ) : Except WriteError Outcome × σ :=
  match request.bind registry with
  | .error e => (.error e, store)
  | .ok bound =>
      match Store.execute bound (fetch && bound.isInsert) store with
      | (.ok result, after) => (.ok (.executed result.rows result.key), after)
      | (.error e, after) => (.error (.ofStore bound.text 0 e), after)

end Request

namespace Outcome

/-- The rows that a request touched, if it was executed. -/
def rows? : Outcome → Option Nat
  | .executed rows _ => some rows
  | .queued _ => none

def isQueued : Outcome → Bool
  | .executed _ _ => false
  | .queued _ => true

end Outcome

end Cascade
