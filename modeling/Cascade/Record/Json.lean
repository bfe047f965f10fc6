import Cascade.Json.Fields
import Cascade.Record.Descriptor

/-!
# Records, descriptors and statements as JSON

Each type is written with all its fields.  It reads from an object or from an
array of its fields; fields that have a value of their own may be missing.
-/

namespace Cascade

open Json

def RootType.ofDocument? (document : Document) : Option RootType :=
  document.string?.map RootType.mk

namespace WriteKind

/-- Whether a document stands for the empty payload of a kind.

In a script an empty object does so as well as null. -/
def isEmptyPayload (inScript : Bool) : Document → Bool
  | .null => true
  | .object [] => inScript
  | _ => false

/-- Read a kind: its name, or an object whose only key is the name. -/
def ofDocument? (inScript : Bool) : Document → Option WriteKind
  | .string name => ofName? name
  | .object [(some name, payload)] =>
      if isEmptyPayload inScript payload then ofName? name else none
  | _ => none

end WriteKind

namespace Record

def fieldNames : List String := ["root", "kind", "depth", "id", "values"]

/-- Read a record write; an identity of null is none. -/
def ofDocument? (inScript : Bool) (document : Document) : Option Record :=
  match document.fields? fieldNames with
  | none => none
  | some fields =>
      match fields.required "root" RootType.ofDocument?,
        fields.required "kind" (WriteKind.ofDocument? inScript),
        fields.withDefault "depth" 0 Document.depth?,
        fields.withDefault "id" none (Document.nullable? Document.datum?),
        fields.withDefault "values" ∅ Document.row? with
      | some root, some kind, some depth, some id, some values =>
          some ⟨root, kind, depth, id, values⟩
      | _, _, _, _, _ => none

def toValue (record : Record) : Value :=
  .ofMembers [
    ("root", .string record.root.name),
    ("kind", .string record.kind.name),
    ("depth", .ofInt record.depth),
    ("id", .ofOption Datum.value record.id),
    ("values", .ofRow record.values)]

end Record

namespace Descriptor

def fieldNames : List String := ["root", "table", "id_column", "imported"]

def ofDocument? (document : Document) : Option Descriptor :=
  match document.fields? fieldNames with
  | none => none
  | some fields =>
      match fields.required "root" RootType.ofDocument?,
        fields.required "table" Document.string?,
        fields.withDefault "id_column" "id" Document.string?,
        fields.withDefault "imported" [] (Document.items? RootType.ofDocument?) with
      | some root, some table, some idColumn, some imported =>
          some ⟨root, table, idColumn, imported⟩
      | _, _, _, _ => none

def toValue (d : Descriptor) : Value :=
  .ofMembers [
    ("root", .string d.root.name),
    ("table", .string d.table),
    ("id_column", .string d.idColumn),
    ("imported", .array (d.imported.map (fun root => .string root.name)))]

end Descriptor

namespace Statement

def fieldNames : List String := ["sql", "params"]

/-- Read a statement; without parameters it has none. -/
def ofDocument? (document : Document) : Option Statement :=
  match document.fields? fieldNames with
  | none => none
  | some fields =>
      match fields.required "sql" Document.string?,
        fields.withDefault "params" [] (Document.items? Document.datum?) with
      | some text, some params => some ⟨text, params⟩
      | _, _ => none

/-- Read a statement whose parameters have to be given. -/
def ofBoundDocument? (document : Document) : Option Statement :=
  match document.fields? fieldNames with
  | none => none
  | some fields =>
      match fields.required "sql" Document.string?,
        fields.required "params" (Document.items? Document.datum?) with
      | some text, some params => some ⟨text, params⟩
      | _, _ => none

def toValue (statement : Statement) : Value :=
  .ofMembers [("sql", .string statement.text), ("params", .ofData statement.params)]

end Statement

end Cascade
