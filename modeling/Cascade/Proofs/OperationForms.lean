import Cascade.Proofs.RecordForms
import Cascade.Replay.Script

/-!
# The canonical form of an operation

A script may spell an operation in many ways.  What it is read as can be
written, and what is written is read as the same operation, because a record
that has been read has a depth in range and no identity of null.  So the value
that is written is a canonical form: it is spelled like the operation, and two
spellings have the same one exactly if they are read as the same operation.
-/

namespace Cascade

open Json

namespace Json.Document

theorem eq_null_of_value? {document : Document} (h : document.value? = some .null) :
    document = .null := by
  cases document with
  | null => rfl
  | bool | number | string | unreadable => simp [value?] at h
  | array items => simp [value?] at h
  | object members => simp [value?] at h

theorem nullable?_datum?_ne_null (document : Document) :
    document.nullable? datum? ≠ some (some Datum.null) := by
  intro h
  unfold nullable? at h
  split at h
  · cases h
  · next hne =>
    obtain ⟨datum, hdatum, hnull⟩ := Option.map_eq_some_iff.1 h
    cases hnull
    exact hne (eq_null_of_value? (datum?_eq_some_iff.1 hdatum))

theorem depth?_eq_some {document : Document} {depth : Int} (h : document.depth? = some depth) :
    -2147483648 ≤ depth ∧ depth ≤ 2147483647 := by
  unfold depth? integer? at h
  split at h
  · split at h
    · next hrange =>
      cases h
      exact hrange
    · cases h
  · cases h

end Json.Document

namespace Record

theorem readable_of_ofDocument?
    {inScript : Bool} {document : Document} {record : Record}
    (h : ofDocument? inScript document = some record) :
    record.InRange ∧ record.id ≠ some Datum.null := by
  unfold ofDocument? at h
  split at h
  · cases h
  · next fields _ =>
    split at h
    · next root kind depth id values _ _ hdepth hid _ =>
      cases h
      constructor
      · unfold Fields.withDefault at hdepth
        split at hdepth
        · exact Document.depth?_eq_some hdepth
        · cases hdepth
          exact (by decide : (-2147483648 : Int) ≤ 0 ∧ (0 : Int) ≤ 2147483647)
      · rintro rfl
        unfold Fields.withDefault at hid
        split at hid
        · exact Document.nullable?_datum?_ne_null _ hid
        · cases hid
    · cases h

end Record

namespace Replay.Operation

/-- What can be read: the record of a save has a depth in range and no identity of null. -/
def Readable : Operation → Prop
  | .save record => record.InRange ∧ record.id ≠ some Datum.null
  | _ => True

/-- The value that is written for what a document spells, if it spells an operation. -/
def canonical? (document : Document) : Option Value :=
  (ofDocument? document).map toValue

/-! ## What has been read -/

theorem readable_of_readSave
    {content : Document} {operation : Operation} (h : readSave content = some operation) :
    operation.Readable := by
  unfold readSave at h
  split at h
  · cases h
  · obtain ⟨record, hrecord, rfl⟩ := Option.map_eq_some_iff.1 h
    unfold Fields.required at hrecord
    split at hrecord
    · exact Record.readable_of_ofDocument? hrecord
    · cases hrecord

theorem readable_of_readRun
    {content : Document} {operation : Operation} (h : readRun content = some operation) :
    operation.Readable := by
  unfold readRun at h
  split at h
  · cases h
  · split at h
    · cases h
      trivial
    · cases h

theorem readable_of_readNamed
    {name : String} {content : Document} {operation : Operation}
    (h : readNamed name content = some operation) :
    operation.Readable := by
  unfold readNamed at h
  split at h
  · exact readable_of_readSave h
  · split at h
    · exact readable_of_readRun h
    · -- The other operations carry nothing.
      cases operation with
      | save record =>
          repeat' split at h
          all_goals cases h
      | run | push | pop | flush | commit | rollback => trivial

theorem readable_of_ofDocument?
    {document : Document} {operation : Operation} (h : ofDocument? document = some operation) :
    operation.Readable := by
  unfold ofDocument? at h
  split at h
  · split at h
    · exact readable_of_readNamed h
    · cases h
  · cases h

/-! ## What is written -/

theorem canonical_toValue (operation : Operation) : operation.toValue.Canonical := by
  cases operation with
  | save record =>
      exact Value.canonical_ofMembers ⟨trivial, record.canonical_toValue, trivial⟩
  | run statement now =>
      exact Value.canonical_ofMembers
        ⟨trivial, trivial, Value.canonical_ofData statement.params, trivial, trivial⟩
  | push | pop | flush | commit | rollback => exact Value.canonical_ofMembers ⟨trivial, trivial⟩

/-- A name that is written beside other members is told apart from them again. -/
theorem split?_ofMembers
    {members : List (String × Value)} (h : ∀ member ∈ members, member.1 ≠ nameField)
    (name : String) :
    split? (Document.ofValue (.ofMembers ((nameField, .string name) :: members))) =
      some (name, Document.ofValue (.ofMembers members)) := by
  have hnone : members.filter (fun member => member.1 == nameField) = [] :=
    List.filter_eq_nil_iff.2 (fun member hmem => by simpa using h member hmem)
  have hall : members.filter (fun member => member.1 != nameField) = members :=
    List.filter_eq_self.2 (fun member hmem => by simpa using h member hmem)
  have hname : (Document.spelled (Assoc.collect ((nameField, .string name) :: members))).filter
      (fun field => field.1 == nameField) = [(nameField, .string name)] := by
    rw [Document.filter_spelled (· == nameField), Assoc.filter_collect (· == nameField),
      List.filter_cons_of_pos (by simp), hnone]
    rfl
  have hothers : (Document.spelled (Assoc.collect ((nameField, .string name) :: members))).filter
      (fun field => field.1 != nameField) = Document.spelled (Assoc.collect members) := by
    rw [Document.filter_spelled (· != nameField), Assoc.filter_collect (· != nameField),
      List.filter_cons_of_neg (by simp), hall]
  rw [Value.ofMembers, Document.ofValue, split?, Document.keyed?_ofMembers, Option.bind_some,
    splitObject, hname, hothers, Value.ofMembers, Document.ofValue, Document.ofMembers_eq_map]

theorem ofDocument?_toValue {operation : Operation} (h : operation.Readable) :
    ofDocument? (Document.ofValue operation.toValue) = some operation := by
  have hvalue : (Document.ofValue operation.toValue).value?.isSome = true := by
    rw [Document.value?_ofValue _ operation.canonical_toValue]
    rfl
  rw [ofDocument?, if_pos hvalue]
  cases operation with
  | save record =>
      obtain ⟨hrange, hid⟩ := h
      have hrecord := Record.ofDocument?_toValue hrange true
      rw [record.withoutNullId_eq_iff.2 hid] at hrecord
      rw [toValue, split?_ofMembers (by simp [nameField])]
      obtain ⟨fields, hfields, hget⟩ :=
        Document.exists_fields [("record", record.toValue)] (by simp) ["record"]
      have hread : fields.required "record" (Record.ofDocument? true) = some record :=
        (Fields.required_of_get? (hget "record" (by simp)) _).trans hrecord
      simp only [readNamed, if_true, readSave, hfields, hread, Option.map_some]
  | run statement now =>
      have hname : ¬"sql" = "save" := by
        decide
      rw [toValue, split?_ofMembers (by simp [nameField])]
      obtain ⟨fields, hfields, hget⟩ :=
        Document.exists_fields [("sql", .string statement.text),
          ("params", .ofData statement.params), ("now", .bool now)] (by simp)
          ["sql", "params", "now"]
      have htext : fields.required "sql" Document.string? = some statement.text :=
        Fields.required_of_get? (hget "sql" (by simp)) _
      have hparams : fields.withDefault "params" [] (Document.items? Document.datum?) =
          some statement.params :=
        (Fields.withDefault_of_get? (hget "params" (by simp)) _ _).trans
          (Document.data?_ofData statement.params)
      have hnow : fields.withDefault "now" false Document.bool? = some now :=
        Fields.withDefault_of_get? (hget "now" (by simp)) _ _
      simp only [readNamed, if_neg hname, if_true, readRun, hfields, htext, hparams, hnow]
  | push | pop | flush | commit | rollback => rfl

/-! ## Canonical forms -/

/-- However an operation is spelled, what is written for it lists the members of every object by
key, spells the same operation and is written again for that.  So two documents that spell
operations spell the same one exactly if they have the same canonical form. -/
theorem canonical_form :
    (∀ document operation, ofDocument? document = some operation →
      canonical? document = some operation.toValue ∧ operation.toValue.Canonical ∧
      ofDocument? (Document.ofValue operation.toValue) = some operation ∧
      canonical? (Document.ofValue operation.toValue) = some operation.toValue) ∧
    ∀ first second one other, ofDocument? first = some one → ofDocument? second = some other →
      (one = other ↔ canonical? first = canonical? second) := by
  have hforms : ∀ document operation, ofDocument? document = some operation →
      canonical? document = some operation.toValue ∧
      ofDocument? (Document.ofValue operation.toValue) = some operation := fun _ _ hread =>
    ⟨by rw [canonical?, hread, Option.map_some],
      ofDocument?_toValue (readable_of_ofDocument? hread)⟩
  constructor
  · intro document operation hread
    obtain ⟨hform, hback⟩ := hforms document operation hread
    exact ⟨hform, operation.canonical_toValue, hback, (hforms _ operation hback).1⟩
  · intro first second one other hfirst hsecond
    obtain ⟨hone, honeback⟩ := hforms first one hfirst
    obtain ⟨hother, hotherback⟩ := hforms second other hsecond
    rw [hone, hother, Option.some.injEq]
    refine ⟨fun heq => heq ▸ rfl, fun hsame => ?_⟩
    rw [hsame, hotherback, Option.some.injEq] at honeback
    exact honeback.symm

/-- An insert that is saved, with the operation named last, a field that nobody knows, the kind as
an object, an identity of null and a column that is given twice. -/
def looseSave : Document :=
  .object [(some "comment", .array [.null]),
    (some "record", .object [(some "values", .object [(some "total", .bool true),
        (some "name", .null), (some "total", .null)]),
      (some "id", .null), (some "kind", .object [(some "insert", .object [])]),
      (some "root", .string "order")]),
    (some "op", .string "save")]

/-- The same as an array, with a record that is an array. -/
def listedSave : Document :=
  .array [.string "save", .array [.string "order", .string "insert", .number (.integer 0), .null,
    .object [(some "name", .null), (some "total", .null)]]]

theorem canonical_form_of_saves :
    ∃ operation, ofDocument? looseSave = some operation ∧ ofDocument? listedSave = some operation ∧
      ofDocument? (Document.ofValue operation.toValue) = some operation ∧
      canonical? looseSave = some operation.toValue ∧
      canonical? looseSave = canonical? listedSave := by
  let operation : Operation := .save
    (((Record.new ⟨"order"⟩ .insert).withValue "total" .null).withValue "name" .null)
  have hloose : ofDocument? looseSave = some operation := by
    decide
  have hlisted : ofDocument? listedSave = some operation := by
    decide
  obtain ⟨hform, -, hback, -⟩ := canonical_form.1 looseSave operation hloose
  exact ⟨operation, hloose, hlisted, hback, hform,
    (canonical_form.2 looseSave listedSave operation operation hloose hlisted).1 rfl⟩

end Replay.Operation

end Cascade
