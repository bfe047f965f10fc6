import Cascade.Store.Basic

/-!
# The recording store

A store that records what it is asked to execute and generates the keys 1, 2,
3, … for inserts.  Every statement touches one row.  A failure can be armed at
a position of the record; it strikes once, when a statement is about to take
that position.
-/

namespace Cascade

open Json

/-- A statement that was executed. -/
structure Executed where
  text : String
  params : List Datum
  /-- The batch call it was part of, counted from zero, if it was part of one. -/
  batch : Option Nat
  deriving DecidableEq, Repr

/-- The state of a recording store. -/
structure Memory where
  executed : List Executed := []
  /-- How many parameter sets each batch call had, in order. -/
  batchSizes : List Nat := []
  keysIssued : Nat := 0
  /-- The position, counted from one, at which a statement is to fail. -/
  failAt : Option Nat := none
  deriving DecidableEq, Repr, Inhabited

namespace Memory

/-- Arm a failure at a position of the record. -/
def armAt (position : Nat) (m : Memory) : Memory :=
  { m with failAt := some position }

/-- Arm a failure at the `count`th statement from now on. -/
def armAfter (count : Nat) (m : Memory) : Memory :=
  { m with failAt := some (m.executed.length + count) }

/-- What the store says when an armed failure strikes. -/
def refusal (position : Nat) : String :=
  "injected failure at statement " ++ toString position

/-- Record a statement, unless a failure is armed at its position. -/
def record (entry : Executed) (m : Memory) : Except String Unit × Memory :=
  let position := m.executed.length + 1
  if m.failAt = some position then (.error (refusal position), { m with failAt := none })
  else (.ok (), { m with executed := m.executed ++ [entry] })

/-- Generate the next key, if one is asked for. -/
def issueKey (wanted : Bool) (m : Memory) : List Datum × Memory :=
  if wanted then
    ([Datum.ofNat (m.keysIssued + 1)], { m with keysIssued := m.keysIssued + 1 })
  else ([], m)

def execute (statement : Statement) (fetch : Bool) (m : Memory) :
    Except StoreError SingleResult × Memory :=
  match m.record ⟨statement.text, statement.params, none⟩ with
  | (.error message, after) => (.error ⟨0, message⟩, after)
  | (.ok (), after) =>
      let (keys, last) := after.issueKey (fetch && statement.isInsert)
      (.ok ⟨1, keys.head?⟩, last)

/-- Execute the parameter sets of a batch call that are left after `done`. -/
def executeSets (text : String) (batch : Nat) (wanted : Bool) :
    List (List Datum) → BatchResult → Memory → Except StoreError BatchResult × Memory
  | [], done, m => (.ok done, m)
  | params :: rest, done, m =>
      match m.record ⟨text, params, some batch⟩ with
      | (.error message, after) => (.error ⟨done.rowCounts.length, message⟩, after)
      | (.ok (), after) =>
          let (keys, last) := after.issueKey wanted
          executeSets text batch wanted rest
            ⟨done.rowCounts ++ [1], done.keys ++ keys⟩ last

/-- Execute one text for each parameter set in turn. -/
def executeBatch (text : String) (sets : List (List Datum)) (fetch : Bool) (m : Memory) :
    Except StoreError BatchResult × Memory :=
  executeSets text m.batchSizes.length (fetch && isInsertText text) sets ⟨[], []⟩
    { m with batchSizes := m.batchSizes ++ [sets.length] }

instance : Store Memory := ⟨execute, executeBatch⟩

end Memory

end Cascade
