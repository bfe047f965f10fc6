import Cascade.Text.Quoted
import Cascade.Transaction

/-!
# Descriptions

Registries, coordinators and transactions in a line of text, for a reader who
looks for the cause of a fault.
-/

namespace Cascade

/-- The parts of a description: a name, and fields with their texts. -/
def describeFields (name : String) (fields : List (String × String)) : String :=
  name ++ " \x7b " ++ ", ".intercalate (fields.map (fun field => field.1 ++ ": " ++ field.2))
    ++ " \x7d"

def describeBool (b : Bool) : String :=
  if b then "true" else "false"

def RootType.describe (root : RootType) : String :=
  "RootType(" ++ Text.quoted root.name ++ ")"

/-- A registry in a description: its root types, by name. -/
def Registry.describe (registry : Registry) : String :=
  describeFields "DescriptorRegistry"
    [("roots", "[" ++ ", ".intercalate (registry.roots.map RootType.describe) ++ "]")]

def Policy.describe (p : Policy) : String :=
  describeFields "BatchConfig" [
    ("batch_size", toString p.batchSize),
    ("flush_on_mixed", describeBool p.flushOnMixed),
    ("fetch_generated_keys", describeBool p.fetchKeys),
    ("buffer_cap_multiplier", toString p.capMultiplier)]

def Coordinator.describe (ctx : Context) (c : Coordinator) : String :=
  describeFields "BatchCoordinator" [
    ("txn", Text.quoted ctx.transaction),
    ("config", c.policy.describe),
    ("groups", toString c.window.size),
    ("max_depth", toString c.maxDepth),
    ("pending_statements", toString c.statements.size)]

def TransactionState.describe : TransactionState → String
  | .active => "Active"
  | .committed => "Committed"
  | .rolledBack => "RolledBack"

def Transaction.describe (t : Transaction) : String :=
  describeFields "Transaction" [
    ("id", Text.quoted t.context.transaction),
    ("state", t.state.describe),
    ("depth", toString t.depth),
    ("batch",
      match t.coordinator with
      | some c => "Some(" ++ c.describe t.context ++ ")"
      | none => "None")]

end Cascade
