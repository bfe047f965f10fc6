import Cascade.Store.Basic

/-!
# Rehearsed stores

A rehearsed store answers its first calls from a list of prepared answers and
keeps those calls; once the list is used up, calls reach the store behind it.
-/

namespace Cascade

open Json

/-- A prepared answer. -/
inductive Answer where
  | refusal (error : StoreError)
  | result (rows : List Nat) (keys : List Datum)

/-- A store with prepared answers in front of another. -/
structure Rehearsed (σ : Type) where
  answers : List Answer
  /-- The calls that were answered from the list, in order. -/
  calls : List Call
  behind : σ

namespace Rehearsed

variable {σ : Type}

/-- Execute one statement: a prepared answer gives its first row count and key. -/
def execute [Store σ] (statement : Statement) (fetch : Bool) (store : Rehearsed σ) :
    Except StoreError SingleResult × Rehearsed σ :=
  match store.answers with
  | [] =>
      let (answer, behind) := Store.execute statement fetch store.behind
      (answer, { store with behind := behind })
  | answer :: rest =>
      let called := { store with
        answers := rest, calls := store.calls ++ [.single statement fetch] }
      match answer with
      | .refusal e => (.error e, called)
      | .result rows keys => (.ok ⟨rows.head?.getD 0, keys.head?⟩, called)

/-- Execute a batch call: a prepared answer is given as it is. -/
def executeBatch [Store σ] (text : String) (sets : List (List Datum)) (fetch : Bool)
    (store : Rehearsed σ) : Except StoreError BatchResult × Rehearsed σ :=
  match store.answers with
  | [] =>
      let (answer, behind) := Store.executeBatch text sets fetch store.behind
      (answer, { store with behind := behind })
  | answer :: rest =>
      let called := { store with
        answers := rest, calls := store.calls ++ [.batch text sets fetch] }
      match answer with
      | .refusal e => (.error e, called)
      | .result rows keys => (.ok ⟨rows, keys⟩, called)

instance [Store σ] : Store (Rehearsed σ) := ⟨execute, executeBatch⟩

end Rehearsed

end Cascade
