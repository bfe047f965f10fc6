import Cascade.Journal.Severity
import Cascade.Record.Basic

/-!
# Errors of writes

What can go wrong between a write and the store.  An error is a cause; its
wording is in `WriteError.message`.
-/

namespace Cascade

/-- The store's refusal of a statement, with the number of statements of the call that it executed
before. -/
structure StoreError where
  /-- How many parameter sets of the call were executed. -/
  succeeded : Nat
  message : String
  deriving DecidableEq, Repr

def StoreError.text (e : StoreError) : String :=
  "store rejected statement after " ++ toString e.succeeded ++ " succeeded: " ++ e.message

/-- What is wrong with a policy. -/
inductive PolicyError where
  | zeroBatchSize
  | zeroCapMultiplier
  | malformed
  | unreadable
  | other (detail : String)
  deriving DecidableEq, Repr

def PolicyError.detail : PolicyError → String
  | .zeroBatchSize => "batch_size must be > 0"
  | .zeroCapMultiplier => "buffer_cap_multiplier must be > 0"
  | .malformed => "Invalid config JSON"
  | .unreadable => "Failed to read config"
  | .other detail => detail

/-- Why a write, a flush or a change of a transaction failed. -/
inductive WriteError where
  | execution (statement : String) (succeeded : Nat) (message : String)
  | unknownRoot (root : RootType)
  | discarded
  | policy (cause : PolicyError)
  deriving DecidableEq, Repr

namespace WriteError

/-- The failure of a statement that the store refused after `earlier` others had been executed. -/
def ofStore (statement : String) (earlier : Nat) (e : StoreError) : WriteError :=
  .execution statement (earlier + e.succeeded) e.message

/-- Count `earlier` more statements as executed before the failure. -/
def after (earlier : Nat) : WriteError → WriteError
  | .execution statement succeeded message => .execution statement (succeeded + earlier) message
  | e => e

def code : WriteError → String
  | .execution _ _ _ => "BATCH_EXECUTION_FAILED"
  | .unknownRoot _ => "BATCH_UNKNOWN_ROOT_TYPE"
  | .discarded => "BATCH_DISCARDED"
  | .policy _ => "BATCH_CONFIG_INVALID"

def message : WriteError → String
  | .execution statement succeeded message =>
      "Batch execution failed on '" ++ statement ++ "' after " ++ toString succeeded
        ++ " statements: " ++ message
  | .unknownRoot root => "No descriptor registered for root type '" ++ root.name ++ "'"
  | .discarded => "Transaction has ended; batch is discarded"
  | .policy cause => "Invalid batch configuration: " ++ cause.detail

/-- The severity of a failure: misuse by the caller is fatal, the rest can be rolled back. -/
def severity : WriteError → Severity
  | .execution _ _ _ => .error
  | .unknownRoot _ => .error
  | .discarded => .fatal
  | .policy _ => .fatal

/-- How many statements were executed before the failure, if it was one of execution. -/
def succeeded? : WriteError → Option Nat
  | .execution _ succeeded _ => some succeeded
  | _ => none

def isFatal (e : WriteError) : Bool :=
  e.severity == .fatal

end WriteError

end Cascade
