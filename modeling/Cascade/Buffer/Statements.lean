import Cascade.Counts
import Cascade.Record.Basic
import Cascade.Statement

/-!
# Buffered statements

Statements wait grouped by the normal form of their text.  Groups keep the
order in which their texts first came, parameter sets the order in which they
were appended.  Whether a group asks for generated keys is settled by the first
statement in it.
-/

namespace Cascade

open Json

/-- A parameter set that waits for its text to be executed. -/
structure Waiting where
  params : List Datum
  /-- The request that a generated key belongs to, if there is one. -/
  origin : Option RequestId
  deriving DecidableEq, Repr

/-- The parameter sets that wait for one text. -/
structure StatementGroup where
  text : String
  isInsert : Bool
  /-- The parameter sets, in the order in which they came. -/
  waiting : List Waiting
  deriving DecidableEq, Repr

namespace StatementGroup

def size (group : StatementGroup) : Nat :=
  group.waiting.length

/-- The parameter sets as they are handed to a store. -/
def paramSets (group : StatementGroup) : List (List Datum) :=
  group.waiting.map Waiting.params

def add (entry : Waiting) (group : StatementGroup) : StatementGroup :=
  { group with waiting := group.waiting ++ [entry] }

end StatementGroup

/-- Statements that wait, grouped by text. -/
structure StatementBatch where
  /-- The groups, in the order in which their texts first came. -/
  groups : List StatementGroup
  deriving DecidableEq, Repr, Inhabited

namespace StatementBatch

def empty : StatementBatch := ⟨[]⟩

/-- Put a parameter set into the group of its text, and tell how large that group is then. -/
def place (text : String) (isInsert : Bool) (entry : Waiting) :
    List StatementGroup → Nat × List StatementGroup
  | [] => (1, [⟨text, isInsert, [entry]⟩])
  | group :: rest =>
      if group.text = text then ((group.add entry).size, group.add entry :: rest)
      else
        let (size, placed) := place text isInsert entry rest
        (size, group :: placed)

/-- Append a statement, and tell how many parameter sets wait for its text then. -/
def append (statement : Statement) (origin : Option RequestId) (batch : StatementBatch) :
    Nat × StatementBatch :=
  let (size, groups) :=
    place (normalText statement.text) statement.isInsert ⟨statement.params, origin⟩ batch.groups
  (size, ⟨groups⟩)

def size (batch : StatementBatch) : Nat :=
  sumOf (batch.groups.map StatementGroup.size)

def largest (batch : StatementBatch) : Nat :=
  greatestOf (batch.groups.map StatementGroup.size)

def isEmpty (batch : StatementBatch) : Bool :=
  batch.groups.isEmpty

/-- The texts with the number of parameter sets that wait for each. -/
def pending (batch : StatementBatch) : List (String × Nat) :=
  batch.groups.map (fun group => (group.text, group.size))

end StatementBatch

end Cascade
