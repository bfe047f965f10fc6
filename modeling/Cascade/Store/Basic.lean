import Cascade.WriteError
import Cascade.Statement

/-!
# Stores

A store executes statements one by one, or one text for many parameter sets as
a single batch call.  Its state is a value: every call yields an answer and the
state after it, also when the answer is a refusal.
-/

namespace Cascade

open Json

/-- What a store answers to a single statement. -/
structure SingleResult where
  rows : Nat
  /-- The key that the store generated, if it was asked for one. -/
  key : Option Datum
  deriving DecidableEq, Repr

/-- What a store answers to a batch call. -/
structure BatchResult where
  rowCounts : List Nat
  /-- The keys that the store generated, in the order of the parameter sets. -/
  keys : List Datum
  deriving DecidableEq, Repr

/-- A call of a store. -/
inductive Call where
  | single (statement : Statement) (fetch : Bool)
  | batch (text : String) (sets : List (List Datum)) (fetch : Bool)
  deriving DecidableEq, Repr

namespace Call

def text : Call → String
  | .single statement _ => statement.text
  | .batch text _ _ => text

def setCount? : Call → Option Nat
  | .single _ _ => none
  | .batch _ sets _ => some sets.length

def fetch : Call → Bool
  | .single _ fetch => fetch
  | .batch _ _ fetch => fetch

end Call

/-- A kind of store whose states are the values of `σ`. -/
class Store (σ : Type) where
  /-- Execute one statement; the flag asks for a generated key. -/
  execute : Statement → Bool → σ → Except StoreError SingleResult × σ
  /-- Execute one text for each parameter set in turn; the flag asks for generated keys. -/
  executeBatch : String → List (List Datum) → Bool → σ → Except StoreError BatchResult × σ

end Cascade
