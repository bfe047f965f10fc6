import Cascade.Json.Value

/-!
# Record writes

A record write inserts, updates or deletes one record.  Its root type says
which group it is buffered in, its depth how far below the record that was
saved first it stands.
-/

namespace Cascade

/-- The type of a record, by which record writes are grouped. -/
structure RootType where
  name : String
  deriving DecidableEq, Repr, Inhabited

instance : KeyOrder RootType :=
  KeyOrder.byKey RootType.name (fun a b h => by cases a; cases b; cases h; rfl)

/-- The number of a request that was buffered, counted from one. -/
structure RequestId where
  number : Nat
  deriving DecidableEq, Repr, Inhabited

instance : KeyOrder RequestId :=
  KeyOrder.byKey RequestId.number (fun a b h => by cases a; cases b; cases h; rfl)

def RequestId.text (id : RequestId) : String :=
  "#" ++ toString id.number

/-- The keys that the store generated, by the request that led to them. -/
abbrev GeneratedKeys := Dictionary RequestId Json.Datum

/-- What a record write does to its record. -/
inductive WriteKind where
  | insert
  | update
  | delete
  deriving DecidableEq, Repr, Inhabited

namespace WriteKind

def name : WriteKind → String
  | .insert => "insert"
  | .update => "update"
  | .delete => "delete"

def ofName? (name : String) : Option WriteKind :=
  if name = "insert" then some .insert
  else if name = "update" then some .update
  else if name = "delete" then some .delete
  else none

@[simp] theorem ofName?_name (kind : WriteKind) : ofName? kind.name = some kind := by
  cases kind <;> decide

end WriteKind

/-- A write of one record. -/
structure Record where
  root : RootType
  kind : WriteKind
  /-- How far the record stands below the one that was saved first. -/
  depth : Int
  /-- The identity of the record; absent where the store is to generate it. -/
  id : Option Json.Datum
  values : Json.Row
  deriving DecidableEq

namespace Record

/-- A write without identity and values, at depth zero. -/
def new (root : RootType) (kind : WriteKind) : Record :=
  ⟨root, kind, 0, none, ∅⟩

/-- The write of a record with an identity, which may be null. -/
def withId (id : Json.Datum) (record : Record) : Record :=
  { record with id := some id }

def withDepth (depth : Int) (record : Record) : Record :=
  { record with depth := depth }

/-- The write with one more column; a column given twice keeps its last value. -/
def withValue (column : String) (value : Json.Datum) (record : Record) : Record :=
  { record with values := record.values.insert column value }

end Record

end Cascade
