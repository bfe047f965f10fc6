/-!
# Arguments

Arguments are taken from left to right.  The first one that cannot be taken
ends with a usage message; a request for help or for the version is answered
when it is reached.
-/

namespace Cascade.CommandLine

/-- What the arguments ask for. -/
inductive Invocation where
  | replay (config script : String) (verbose : Bool)
  | version
  | help
  | replayHelp
  | helpHelp
  | misuse
  deriving DecidableEq, Repr

/-- The path of the setup where none is given. -/
def defaultConfig : String := "./graphbatch.json"

/-- What the arguments of a replay have said so far. -/
structure Options where
  config : Option String := none
  script : Option String := none
  verbose : Bool := false
  deriving DecidableEq, Repr

namespace Options

/-- Take a path, which may be given once and not be empty. -/
def takePath (given : Option String) (path : String) : Option (Option String) :=
  if given.isSome ∨ path = "" then none else some (some path)

def takeConfig (path : String) (options : Options) : Option Options :=
  (takePath options.config path).map (fun config => { options with config := config })

def takeScript (path : String) (options : Options) : Option Options :=
  (takePath options.script path).map (fun script => { options with script := script })

/-- Take the flag for details, which may be given once. -/
def takeVerbose (options : Options) : Option Options :=
  if options.verbose then none else some { options with verbose := true }

/-- What complete arguments of a replay ask for; `verbose` was given in front of the command. -/
def finish (verbose : Bool) (options : Options) : Invocation :=
  match options.script with
  | some script =>
      .replay (options.config.getD defaultConfig) script (verbose || options.verbose)
  | none => .misuse

end Options

/-- Whether an argument looks like an option and so is no value of the option in front of it. -/
def looksLikeOption (argument : String) : Bool :=
  argument.toList.head? == some '-' && argument != "-"

def behind? (beginning argument : String) : Option String :=
  if beginning.toList.isPrefixOf argument.toList then
    some (String.ofList (argument.toList.drop beginning.toList.length))
  else none

/-- Whether an argument begins with a given short option; further letters are not looked at. -/
def isShort (letter : Char) (argument : String) : Bool :=
  argument.toList.take 2 == ['-', letter]

/-- Take an option that carries its value behind an equals sign, or a flag. -/
def takeAttached (argument : String) (options : Options) : Option Options :=
  if argument = "--verbose" then options.takeVerbose
  else
    match behind? "--config=" argument, behind? "--script=" argument with
    | some path, _ => options.takeConfig path
    | none, some path => options.takeScript path
    | none, none => none

def takeValue (argument value : String) (options : Options) : Option Options :=
  if looksLikeOption value then none
  else if argument = "--config" then options.takeConfig value
  else options.takeScript value

def replayArguments (verbose : Bool) (options : Options) : List String → Invocation
  | [] => options.finish verbose
  | argument :: rest =>
      if argument = "--" then
        if rest.isEmpty then options.finish verbose else .misuse
      else if argument = "--help" ∨ isShort 'h' argument then .replayHelp
      else if argument = "--config" ∨ argument = "--script" then
        match rest with
        | [] => .misuse
        | value :: others =>
            match takeValue argument value options with
            | some options => replayArguments verbose options others
            | none => .misuse
      else
        match takeAttached argument options with
        | some options => replayArguments verbose options rest
        | none => .misuse

/-- The arguments of the help command: the command to explain. -/
def helpArguments : List String → Invocation
  | [] => .help
  | ["replay"] => .replayHelp
  | ["help"] => .helpHelp
  | _ => .misuse

/-- The arguments in front of a command, and what follows it. -/
def topArguments (verbose : Bool) : List String → Invocation
  | [] => .misuse
  | argument :: rest =>
      if argument = "replay" then replayArguments verbose {} rest
      else if argument = "help" then helpArguments rest
      else if argument = "--help" ∨ isShort 'h' argument then .help
      else if argument = "--version" ∨ isShort 'V' argument then .version
      else if argument = "--verbose" ∧ verbose = false then topArguments true rest
      else .misuse

def parseArguments (arguments : List String) : Invocation :=
  topArguments false arguments

def versionText : String := "graphbatch 0.1.0"

def aboutText : String := "Depth-ordered write batching for object-graph persistence"

def replayText : String :=
  "Replay a JSON-lines write script and print the executed statements"

def helpText : String :=
  "Print this message or the help of the given subcommand(s)"

def usageLines : List String := [
  "Usage: graphbatch [OPTIONS] <COMMAND>",
  "",
  "Commands:",
  "  replay  " ++ replayText,
  "  help    " ++ helpText,
  "",
  "Options:",
  "      --verbose  Log per-request TRACE events (all logging goes to stderr)",
  "  -h, --help     Print help",
  "  -V, --version  Print version"]

def replayUsageLines : List String := [
  "Usage: graphbatch replay [OPTIONS] --script <SCRIPT>",
  "",
  "Options:",
  "      --config <CONFIG>  Path to configuration file [default: ./graphbatch.json]",
  "      --verbose          Log per-request TRACE events (all logging goes to stderr)",
  "      --script <SCRIPT>  Path to the JSON-lines script",
  "  -h, --help             Print help"]

def helpUsageLines : List String := [
  "Usage: graphbatch help [COMMAND]...",
  "",
  "Arguments:",
  "  [COMMAND]...  Print help for the subcommand(s)"]

end Cascade.CommandLine
