import Cascade.CommandLine.Failure
import Cascade.CommandLine.Files
import Cascade.CommandLine.Usage
import Cascade.Journal.Outlet
import Cascade.Replay.Report
import Cascade.Text.Lines

/-!
# Replies

What the program writes and how it exits, given its arguments and the files
that they name.  The output stream carries one line of JSON and nothing else;
the journal goes to the error stream.
-/

namespace Cascade.CommandLine

open Json

/-- What the program writes and how it exits. -/
structure Reply where
  exit : Nat
  output : List String
  /-- The texts on the error stream, each of which is followed by a line feed. -/
  errors : List String
  deriving DecidableEq, Repr

def Reply.errorText (reply : Reply) : List Char :=
  reply.errors.flatMap (fun text => text.toList ++ ['\n'])

/-- The lines of the error stream: a text that names a root type may take several. -/
def Reply.errorLines (reply : Reply) : List String :=
  (Text.textLines reply.errorText).map String.ofList

/-- Read a file with one value per line; already the first line of a directory cannot be read. -/
def readValues {α : Type} (read : List Char → Option α) (path : String) :
    Place → Except Failure (List α)
  | .nothing => .error (.script 0 (.missing path))
  | .directory => .error (.script 1 .malformed)
  | .file content =>
      match Replay.readScript read content with
      | .error line => .error (.script line .malformed)
      | .ok values => .ok values

def readOperations (path : String) (script : Place) : Except Failure (List Replay.Operation) :=
  readValues Replay.Operation.ofText? path script

/-- Replay a script, given what the paths of the setup and of the script lead to. -/
def replay (config : Place) (path : String) (script : Place) (transaction : String) :
    Except Failure (Replay.Report × List Journal.Entry) :=
  match Replay.Setup.ofFile config.content? with
  | .error cause => .error (.setup cause)
  | .ok setup =>
      match readOperations path script with
      | .error failure => .error failure
      | .ok operations =>
          match Replay.perform setup operations transaction with
          | .error cause => .error (.write cause)
          | .ok performed => .ok performed

/-- The outlet of the journal: everything goes to the error stream. -/
def outlet (verbose : Bool) : Journal.Outlet :=
  { least := if verbose then .trace else .info, errorsOnly := true }

def successValue (data : Value) : Value :=
  .ofMembers [("status", .string "ok"), ("data", data)]

def failureValue (failure : Failure) : Value :=
  .ofMembers [
    ("status", .string "error"),
    ("code", .string failure.code),
    ("message", .string failure.message)]

def replayReply (config : Place) (path : String) (script : Place) (verbose : Bool)
    (transaction : String) : Reply :=
  match replay config path script transaction with
  | .ok (report, journal) =>
      ⟨0, [(successValue report.toValue).render], ((outlet verbose).writeAll journal).map Prod.snd⟩
  | .error failure => ⟨1, [(failureValue failure).render], [failure.text]⟩

/-- The reply to what arguments ask for; `find` tells what a path leads to. -/
def replyTo (invocation : Invocation) (find : String → Place) (transaction : String) : Reply :=
  match invocation with
  | .replay config script verbose =>
      replayReply (find config) script (find script) verbose transaction
  | .version => ⟨0, [versionText], []⟩
  | .help => ⟨0, [aboutText, ""] ++ usageLines, []⟩
  | .replayHelp => ⟨0, [replayText, ""] ++ replayUsageLines, []⟩
  | .helpHelp => ⟨0, [helpText, ""] ++ helpUsageLines, []⟩
  | .misuse => ⟨2, [], usageLines⟩

end Cascade.CommandLine
