import Cascade.Json.Document
import Cascade.Json.Token

/-!
# Reading JSON

The reader takes one token at a time and keeps the containers that are still
open on a stack, so it recurses on the tokens alone and texts may nest to any
depth.  A text is read as a document, which keeps everything that is written.
-/

namespace Cascade.Json

/-- A container in which a value is awaited; what came before it is in reverse. -/
inductive Frame where
  | item (before : List Document)
  | member (before : List (Option String × Document)) (key : Option String)

/-- A reader between two tokens; parts that came before are in reverse. -/
inductive Reader where
  /-- A value has to come. -/
  | value (outer : List Frame)
  /-- The first item of an array has to come, or its end. -/
  | firstItem (outer : List Frame)
  /-- The first key of an object has to come, or its end. -/
  | firstKey (outer : List Frame)
  /-- Another key has to come. -/
  | nextKey (before : List (Option String × Document)) (outer : List Frame)
  /-- The colon behind a key has to come. -/
  | colon (before : List (Option String × Document)) (key : Option String) (outer : List Frame)
  /-- An item of an array is complete. -/
  | afterItem (items : List Document) (outer : List Frame)
  /-- A member of an object is complete. -/
  | afterMember (members : List (Option String × Document)) (outer : List Frame)
  /-- The whole text has been read. -/
  | done (document : Document)

namespace Reader

def complete (document : Document) : List Frame → Reader
  | [] => .done document
  | .item before :: outer => .afterItem (document :: before) outer
  | .member before key :: outer => .afterMember ((key, document) :: before) outer

def closeArray (items : List Document) (outer : List Frame) : Reader :=
  complete (Document.bounded outer (.array items.reverse)) outer

def closeObject (members : List (Option String × Document)) (outer : List Frame) : Reader :=
  complete (Document.bounded outer (.object members.reverse)) outer

def start (outer : List Frame) : Token → Option Reader
  | .openArray => some (.firstItem outer)
  | .openObject => some (.firstKey outer)
  | .null => some (complete .null outer)
  | .bool b => some (complete (.bool b) outer)
  | .number (some n) => some (complete (.number n) outer)
  | .string (some s) => some (complete (.string s) outer)
  | .number none => some (complete .unreadable outer)
  | .string none => some (complete .unreadable outer)
  | _ => none

def step : Reader → Token → Option Reader
  | .value outer, token => start outer token
  | .firstItem outer, .closeArray => some (closeArray [] outer)
  | .firstItem outer, token => start (.item [] :: outer) token
  | .firstKey outer, .closeObject => some (closeObject [] outer)
  | .firstKey outer, .string key => some (.colon [] key outer)
  | .nextKey before outer, .string key => some (.colon before key outer)
  | .colon before key outer, .colon => some (.value (.member before key :: outer))
  | .afterItem items outer, .comma => some (.value (.item items :: outer))
  | .afterItem items outer, .closeArray => some (closeArray items outer)
  | .afterMember members outer, .comma => some (.nextKey members outer)
  | .afterMember members outer, .closeObject => some (closeObject members outer)
  | _, _ => none

def run : Reader → List Token → Option Reader
  | reader, [] => some reader
  | reader, token :: rest =>
      match reader.step token with
      | some next => run next rest
      | none => none

end Reader

namespace Document

/-- Read a text that holds one document and nothing else. -/
def read? (text : List Char) : Option Document :=
  match tokens? text with
  | some tokens =>
      match Reader.run (.value []) tokens with
      | some (.done document) => some document
      | _ => none
  | none => none

def ofText? (text : String) : Option Document :=
  read? text.toList

end Document

end Cascade.Json
