import Cascade.Replay.Setup

/-!
# Failures of a command

A command fails before anything is executed: its setup or its script cannot be
used, or writing its answer does not succeed.
-/

namespace Cascade.CommandLine

/-- Why a script cannot be used. -/
inductive ScriptFault where
  | missing (path : String)
  | malformed
  | other (detail : String)
  deriving DecidableEq, Repr

/-- Why a command failed. -/
inductive Failure where
  /-- The setup cannot be used. -/
  | setup (cause : Replay.SetupError)
  /-- The setup cannot be used, for a reason given in words. -/
  | unusable (message : String)
  /-- A line of the script cannot be used; a script that is missing has the line zero. -/
  | script (line : Nat) (cause : ScriptFault)
  /-- A transaction could not be begun. -/
  | write (cause : WriteError)
  /-- Reading or writing failed. -/
  | transfer (message : String)
  /-- An answer could not be written as JSON. -/
  | encoding (message : String)
  deriving DecidableEq, Repr

def configCode : String := "GRAPHBATCH_CLI_CONFIG_ERROR"

def scriptCode : String := "GRAPHBATCH_CLI_SCRIPT_ERROR"

def batchCode : String := "GRAPHBATCH_CLI_BATCH_ERROR"

/-- The code of a failure of reading or writing. -/
def transferCode : String := "GRAPHBATCH_CLI_IO_ERROR"

/-- What is wrong with a script line, behind its number. -/
def ScriptFault.detail : ScriptFault → String
  | .missing path => ": Failed to open '" ++ path ++ "'"
  | .malformed => ""
  | .other detail => ": " ++ detail

/-- The wording of a failed write, behind its code. -/
def writeMessage (cause : WriteError) : String :=
  cause.code ++ ": " ++ cause.message

def setupMessage : Replay.SetupError → String
  | .unreadable => "Failed to read config"
  | .malformed => "Invalid config JSON"
  | .policy cause => writeMessage (.policy cause)
  | .noDescriptor => "descriptors must not be empty"
  | .repeatedRoot root => "Duplicate descriptor for root type '" ++ root.name ++ "'"
  | .zeroFailAt => "fail_at is 1-based"

namespace Failure

/-- The code of a failure; an unusable policy is one of configuration. -/
def code : Failure → String
  | .setup _ => configCode
  | .unusable _ => configCode
  | .script _ _ => scriptCode
  | .write (.policy _) => configCode
  | .write _ => batchCode
  | .transfer _ => transferCode
  | .encoding _ => transferCode

def message : Failure → String
  | .setup cause => setupMessage cause
  | .unusable message => message
  | .script line cause => "line " ++ toString line ++ cause.detail
  | .write cause => writeMessage cause
  | .transfer message => message
  | .encoding message => "JSON error: " ++ message

/-- A failure as it is told: its code and its wording. -/
def text (failure : Failure) : String :=
  failure.code ++ ": " ++ failure.message

end Failure

end Cascade.CommandLine
