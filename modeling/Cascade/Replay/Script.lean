import Cascade.Json.Reader
import Cascade.Record.Json
import Cascade.Text.Blank
import Cascade.Text.Lines
import Cascade.Text.Utf8
import Cascade.Transaction

/-!
# Scripts

A script is a file with one operation per line, written as JSON.  Blank lines
and lines that begin with `#` are skipped.  A script is read as a whole or not
at all: the first line that cannot be read is reported by its number.
-/

namespace Cascade.Replay

open Json

/-- An operation of a script. -/
inductive Operation where
  /-- Save a record at the present depth of the cascade. -/
  | save (record : Record)
  /-- Run a statement, at once or as batching has it. -/
  | run (statement : Statement) (now : Bool)
  | push
  | pop
  | flush
  | commit
  | rollback
  deriving DecidableEq

namespace Operation

def nameField : String := "op"

/-- The operation of an object: its name, and the other fields as they are written. -/
def splitObject (fields : Fields) : Option (String × Document) :=
  match fields.filter (fun field => field.1 == nameField) with
  | [(_, .string name)] =>
      some (name, .object ((fields.filter (fun field => field.1 != nameField)).map
        (fun field => (some field.1, field.2))))
  | _ => none

/-- The name of an operation and what is written beside it: the other fields of an object, or the
items behind the first. -/
def split? : Document → Option (String × Document)
  | .object members => (Document.keyed? members).bind splitObject
  | .array (.string name :: rest) => some (name, .array rest)
  | _ => none

/-- Whether nothing that counts is written beside the name: an object may hold anything. -/
def isBare : Document → Bool
  | .object _ => true
  | .array [] => true
  | _ => false

def readSave (content : Document) : Option Operation :=
  match content.fields? ["record"] with
  | none => none
  | some fields => (fields.required "record" (Record.ofDocument? true)).map .save

def readRun (content : Document) : Option Operation :=
  match content.fields? ["sql", "params", "now"] with
  | none => none
  | some fields =>
      match fields.required "sql" Document.string?,
        fields.withDefault "params" [] (Document.items? Document.datum?),
        fields.withDefault "now" false Document.bool? with
      | some text, some params, some now => some (.run ⟨text, params⟩ now)
      | _, _, _ => none

/-- Read an operation, given its name and what is written beside it. -/
def readNamed (name : String) (content : Document) : Option Operation :=
  if name = "save" then readSave content
  else if name = "sql" then readRun content
  else if isBare content then
    if name = "push" then some .push
    else if name = "pop" then some .pop
    else if name = "flush" then some .flush
    else if name = "commit" then some .commit
    else if name = "rollback" then some .rollback
    else none
  else none

/-- Read an operation; no part of it may be unreadable, skipped fields included. -/
def ofDocument? (document : Document) : Option Operation :=
  if document.value?.isSome then
    match split? document with
    | some (name, content) => readNamed name content
    | none => none
  else none

def toValue : Operation → Value
  | .save record => .ofMembers [(nameField, .string "save"), ("record", record.toValue)]
  | .run statement now =>
      .ofMembers [
        (nameField, .string "sql"),
        ("sql", .string statement.text),
        ("params", .ofData statement.params),
        ("now", .bool now)]
  | .push => .ofMembers [(nameField, .string "push")]
  | .pop => .ofMembers [(nameField, .string "pop")]
  | .flush => .ofMembers [(nameField, .string "flush")]
  | .commit => .ofMembers [(nameField, .string "commit")]
  | .rollback => .ofMembers [(nameField, .string "rollback")]

def ofText? (text : List Char) : Option Operation :=
  (Document.read? text).bind ofDocument?

variable {σ : Type}

def ignore {α : Type} (step : Step Transaction σ α) : Step Transaction σ Unit :=
  step.andThen (fun _ t b => (.ok (), t, b))

def apply [Store σ] (operation : Operation) (t : Transaction) (b : Backing σ) :
    Step Transaction σ Unit :=
  match operation with
  | .save record => ignore (t.save record b)
  | .run statement true => ignore (t.runNow statement b)
  | .run statement false => ignore (t.run statement b)
  | .push => (.ok (), t.push, b)
  | .pop => (.ok (), t.pop, b)
  | .flush => ignore (t.flush b)
  | .commit => t.commit b
  | .rollback => t.rollback b

end Operation

/-- Whether a line, its outer blanks removed, holds no operation. -/
def isSkipped : List Char → Bool
  | [] => true
  | c :: _ => c = '#'

/-- What a line holds: nothing where it is skipped, and otherwise what `read` makes of it. -/
def readLine {α : Type} (read : List Char → Option α) (line : List UInt8) :
    Option (Option α) :=
  match Text.decodeUtf8 line with
  | none => none
  | some chars =>
      let text := Text.trimBlanks chars
      if isSkipped text then some none else (read text).map some

/-- Read lines one by one, or report the number of the first that cannot be read.

The first of the lines has the number `number`. -/
def readLines {α : Type} (read : List Char → Option α) (number : Nat) :
    List (List UInt8) → Except Nat (List α)
  | [] => .ok []
  | line :: rest =>
      match readLine read line with
      | none => .error number
      | some held =>
          match readLines read (number + 1) rest with
          | .error bad => .error bad
          | .ok values => .ok (held.toList ++ values)

/-- Read a file with one value per line, or report the number of the first bad line. -/
def readScript {α : Type} (read : List Char → Option α) (content : List UInt8) :
    Except Nat (List α) :=
  readLines read 1 (Text.lines Text.lineFeed content)

end Cascade.Replay
