import Cascade.Json.Document

/-!
# Reading documents as typed data

A record type reads from an object by the names of its fields, or from an
array by their order.  `Document.fields?` does both and yields the fields that
are present: a named field may stand once, members with other names are
skipped, and an array may end early but not run over.
-/

namespace Cascade.Json

/-- The fields of a record that are present, with their documents. -/
abbrev Fields := List (String × Document)

namespace Fields

def required {α : Type} (fields : Fields) (name : String) (read : Document → Option α) :
    Option α :=
  match Assoc.get? name fields with
  | some document => read document
  | none => none

/-- A field that has a value of its own when it is absent. -/
def withDefault {α : Type} (fields : Fields) (name : String) (absent : α)
    (read : Document → Option α) : Option α :=
  match Assoc.get? name fields with
  | some document => read document
  | none => some absent

end Fields

namespace Document

/-- The readable keys of members with their documents, unless a key is unreadable. -/
def keyed? : List (Option String × Document) → Option Fields
  | [] => some []
  | (some key, document) :: rest => (keyed? rest).map ((key, document) :: ·)
  | (none, _) :: _ => none

def distinct : List String → Bool
  | [] => true
  | name :: rest => !rest.contains name && distinct rest

/-- The fields with the given names, unless one of them is repeated. -/
def namedFields? (names : List String) (members : Fields) : Option Fields :=
  let named := members.filter (fun member => names.contains member.1)
  if distinct (named.map Prod.fst) then some named else none

/-- The fields in the order of the given names, unless there are more. -/
def listedFields? (names : List String) (items : List Document) : Option Fields :=
  if items.length ≤ names.length then some (names.zip items) else none

/-- The fields of a record whose fields have the given names, in the given order. -/
def fields? (names : List String) : Document → Option Fields
  | .object members => (keyed? members).bind (namedFields? names)
  | .array items => listedFields? names items
  | _ => none

def string? : Document → Option String
  | .string text => some text
  | _ => none

def bool? : Document → Option Bool
  | .bool b => some b
  | _ => none

/-- Read a whole number between two bounds, both included. -/
def integer? (least greatest : Int) : Document → Option Int
  | .number (.integer n) => if least ≤ n ∧ n ≤ greatest then some n else none
  | _ => none

/-- Read a count: a whole number that fits in 64 bits. -/
def count? (document : Document) : Option Nat :=
  (document.integer? 0 18446744073709551615).map Int.toNat

/-- Read a depth: a whole number that fits in 32 bits with a sign. -/
def depth? (document : Document) : Option Int :=
  document.integer? (-2147483648) 2147483647

/-- Read the items of an array one by one. -/
def items? {α : Type} (read : Document → Option α) : Document → Option (List α)
  | .array items => items.mapM read
  | _ => none

def nullable? {α : Type} (read : Document → Option α) : Document → Option (Option α)
  | .null => some none
  | document => (read document).map some

def columns? : List (Option String × Document) → Option (List (String × Datum))
  | [] => some []
  | (some key, document) :: rest =>
      match document.datum?, columns? rest with
      | some datum, some columns => some ((key, datum) :: columns)
      | _, _ => none
  | (none, _) :: _ => none

/-- Read an object as a row; a repeated column keeps its last value. -/
def row? : Document → Option Row
  | .object members => (columns? members).map Dictionary.ofList
  | _ => none

end Document

namespace Value

def ofRow (row : Row) : Value :=
  .object (row.entries.map (fun column => (column.1, column.2.value)))

def ofData (data : List Datum) : Value :=
  .array (data.map Datum.value)

/-- A value that may be absent, written as null when it is. -/
def ofOption {α : Type} (write : α → Value) : Option α → Value
  | some a => write a
  | none => .null

end Value

end Cascade.Json
