import Cascade.Record.Basic
import Cascade.Statement

/-!
# Descriptors

A descriptor names the table of a root type, the column that identifies its
records, and the root types that its records refer to.  It binds a record
write to a statement: columns in ascending order, the identity first in an
insert and last elsewhere.  A value given for the identity column is left out;
the identity of the record is what counts.

Registries are open to other ways of describing a root type, but the
descriptors of tables are the only ones that are there, so they are the only
ones that a registry holds here.
-/

namespace Cascade

open Json

/-- How records of one root type are stored. -/
structure Descriptor where
  root : RootType
  table : String
  idColumn : String := "id"
  /-- The root types that the records refer to, in the order of declaration. -/
  imported : List RootType := []
  deriving DecidableEq, Repr

namespace Descriptor

def withIdColumn (column : String) (d : Descriptor) : Descriptor :=
  { d with idColumn := column }

def imports (target : RootType) (d : Descriptor) : Descriptor :=
  { d with imported := d.imported ++ [target] }

/-- The columns of a record other than the identity, with their values. -/
def columns (d : Descriptor) (record : Record) : List (String × Datum) :=
  record.values.entries.filter (fun column => column.1 != d.idColumn)

/-- The columns that an insert fills, with their values. -/
def insertColumns (d : Descriptor) (record : Record) : List (String × Datum) :=
  match record.id with
  | some id => (d.idColumn, id) :: d.columns record
  | none => d.columns record

/-- Texts with a comma and a space between neighbours. -/
def listed (texts : List String) : String :=
  ", ".intercalate texts

def bindInsert (d : Descriptor) (record : Record) : Statement :=
  let columns := d.insertColumns record
  { text := "insert into " ++ d.table ++ " (" ++ listed (columns.map Prod.fst) ++ ") values ("
      ++ listed (columns.map (fun _ => "?")) ++ ")"
    params := columns.map Prod.snd }

def bindUpdate (d : Descriptor) (record : Record) : Statement :=
  let columns := d.columns record
  { text := "update " ++ d.table ++ " set "
      ++ listed (columns.map (fun column => column.1 ++ " = ?"))
      ++ " where " ++ d.idColumn ++ " = ?"
    params := columns.map Prod.snd ++ [record.id.getD Datum.null] }

def bindDelete (d : Descriptor) (record : Record) : Statement :=
  { text := "delete from " ++ d.table ++ " where " ++ d.idColumn ++ " = ?"
    params := [record.id.getD Datum.null] }

def bind (d : Descriptor) (record : Record) : Statement :=
  match record.kind with
  | .insert => d.bindInsert record
  | .update => d.bindUpdate record
  | .delete => d.bindDelete record

end Descriptor

/-- The descriptors of the root types that a store knows. -/
structure Registry where
  descriptors : Dictionary RootType Descriptor

namespace Registry

def empty : Registry := ⟨∅⟩

/-- Register a descriptor in place of an earlier one of the same root type. -/
def register (registry : Registry) (d : Descriptor) : Registry :=
  ⟨registry.descriptors.insert d.root d⟩

/-- The registry of some descriptors; of several with one root type the last stays. -/
def ofList (descriptors : List Descriptor) : Registry :=
  descriptors.foldl register empty

/-- The descriptor of a root type, if it is known. -/
def get? (registry : Registry) (root : RootType) : Option Descriptor :=
  registry.descriptors.get? root

def contains (registry : Registry) (root : RootType) : Bool :=
  registry.descriptors.contains root

/-- The root types that a root type refers to; none if it is unknown. -/
def imported (registry : Registry) (root : RootType) : List RootType :=
  match registry.get? root with
  | some d => d.imported
  | none => []

def roots (registry : Registry) : List RootType :=
  registry.descriptors.keys

def size (registry : Registry) : Nat :=
  registry.descriptors.size

def isEmpty (registry : Registry) : Bool :=
  registry.descriptors.isEmpty

end Registry

end Cascade
