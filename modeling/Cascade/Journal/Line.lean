import Cascade.Journal.Severity
import Cascade.Json.Writer
import Cascade.Sorting

/-!
# Lines of the journal

A line is one JSON object: the event, the severity, then the fields by
ascending key, and a line feed.  Fields with the same key keep their order.
-/

namespace Cascade.Journal

/-- A named text in a line. -/
abbrev Field := String × String

/-- Whether the key of one field comes before the key of another. -/
def keyPrecedes (a b : Field) : Bool :=
  a.1 < b.1

/-- A member of the object that makes up a line, with the comma in front of it. -/
def writeField (field : Field) : List Char :=
  ',' :: Json.quote field.1 ++ ':' :: Json.quote field.2

def lineFields (severity : Severity) (fields : List Field) : List Field :=
  ("severity", severity.name) :: sortBy keyPrecedes fields

def writeObject (severity : Severity) (event : String) (fields : List Field) : List Char :=
  '{' :: Json.quote "event" ++ ':' :: Json.quote event ++
    (lineFields severity fields).flatMap writeField ++ ['}']

/-- The object that makes up a line, as a text. -/
def object (severity : Severity) (event : String) (fields : List Field) : String :=
  String.ofList (writeObject severity event fields)

/-- The line of an event, with the line feed at its end. -/
def line (severity : Severity) (event : String) (fields : List Field) : String :=
  String.ofList (writeObject severity event fields ++ ['\n'])

end Cascade.Journal
