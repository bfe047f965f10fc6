import Cascade.Proofs.ReadBack

/-!
# Records that are read back

A record write is written as an object of all its fields.  It is read back from
there with the identity as the only field that can change: no identity and one
of null are written alike, and both are read as none.
-/

namespace Cascade

open Json

namespace Json.Fields

variable {α : Type} {fields : Fields} {name : String} {document : Document}

theorem required_of_get?
    (h : Assoc.get? name fields = some document) (read : Document → Option α) :
    fields.required name read = read document := by
  rw [required, h]

theorem withDefault_of_get?
    (h : Assoc.get? name fields = some document) (absent : α) (read : Document → Option α) :
    fields.withDefault name absent read = read document := by
  rw [withDefault, h]

end Json.Fields

namespace Record

/-- Depths are whole numbers that fit in 32 bits with a sign. -/
def InRange (record : Record) : Prop :=
  -2147483648 ≤ record.depth ∧ record.depth ≤ 2147483647

instance (record : Record) : Decidable record.InRange :=
  inferInstanceAs (Decidable (_ ∧ _))

/-- The write with an identity of null taken for none. -/
def withoutNullId (record : Record) : Record :=
  { record with id := if record.id = some Datum.null then none else record.id }

theorem withoutNullId_eq_iff (record : Record) :
    record.withoutNullId = record ↔ record.id ≠ some Datum.null := by
  obtain ⟨root, kind, depth, id, values⟩ := record
  by_cases hnull : id = some Datum.null <;> simp [withoutNullId, hnull]

theorem canonical_toValue (record : Record) : record.toValue.Canonical := by
  have hid : (Value.ofOption Datum.value record.id).Canonical := by
    cases record.id with
    | none => exact Datum.null.canonical
    | some id => exact id.canonical
  exact Value.canonical_ofMembers
    ⟨trivial, trivial, trivial, hid, Value.canonical_ofRow record.values, trivial⟩

/-- A record write is read back with an identity of null taken for none, in a script and
elsewhere. -/
theorem ofDocument?_toValue
    {record : Record} (h : record.InRange) (inScript : Bool) :
    ofDocument? inScript (Document.ofValue record.toValue) = some record.withoutNullId := by
  have hnames : fieldNames.Nodup := by
    decide
  obtain ⟨fields, hfields, hget⟩ :
      ∃ fields, (Document.ofValue record.toValue).fields? fieldNames = some fields ∧
        ∀ name ∈ fieldNames, Assoc.get? name fields = (Assoc.get? name _).map Document.ofValue :=
    Document.exists_fields _ (by exact hnames) fieldNames
  have hroot : fields.required "root" RootType.ofDocument? = some record.root :=
    Fields.required_of_get? (hget "root" (by decide)) _
  have hkind : fields.required "kind" (WriteKind.ofDocument? inScript) = some record.kind :=
    (Fields.required_of_get? (hget "kind" (by decide)) _).trans (WriteKind.ofName?_name _)
  have hdepth : fields.withDefault "depth" 0 Document.depth? = some record.depth :=
    (Fields.withDefault_of_get? (hget "depth" (by decide)) _ _).trans (if_pos h)
  have hid : fields.withDefault "id" none (Document.nullable? Document.datum?) =
      some record.withoutNullId.id := by
    rw [Fields.withDefault_of_get? (hget "id" (by decide))]
    simp only [withoutNullId]
    cases record.id with
    | none => rfl
    | some id =>
        simp only [Option.some.injEq]
        exact Document.nullable?_datum?_ofValue id
  have hvalues : fields.withDefault "values" ∅ Document.row? = some record.values :=
    (Fields.withDefault_of_get? (hget "values" (by decide)) _ _).trans
      (Document.row?_ofRow record.values)
  simp only [ofDocument?, hfields, hroot, hkind, hdepth, hid, hvalues]
  rfl

/-- Only an insert tells an identity of null from none. -/
theorem bind_withoutNullId_iff (d : Descriptor) (record : Record) :
    d.bind record.withoutNullId = d.bind record ↔
      ¬(record.kind = .insert ∧ record.id = some Datum.null) := by
  by_cases hnull : record.id = some Datum.null
  · have hback : record.withoutNullId = { record with id := none } := by
      rw [withoutNullId, if_pos hnull]
    rw [hback]
    obtain ⟨root, kind, depth, id, values⟩ := record
    cases hnull
    cases kind with
    | insert =>
        refine iff_of_false (fun hbind => ?_) (fun hnot => hnot ⟨rfl, rfl⟩)
        -- The identity of null fills a column of its own.
        have hparams : ((d.columns _).map Prod.snd).length =
            (Datum.null :: (d.columns _).map Prod.snd).length :=
          congrArg (fun statement => statement.params.length) hbind
        rw [List.length_cons] at hparams
        exact Nat.ne_of_lt (Nat.lt_succ_self _) hparams
    | update | delete => exact iff_of_true rfl (fun hinsert => nomatch hinsert.1)
  · rw [record.withoutNullId_eq_iff.2 hnull]
    exact iff_of_true rfl (fun hinsert => hnull hinsert.2)

/-- A record write is read back from the JSON value that it is written as, with an identity of null
taken for none and everything else as it was.  It is therefore read back as it was exactly if its
identity is not null, and it binds to the same statement under every descriptor unless it is an
insert with an identity of null. -/
theorem read_back {record : Record} (h : record.InRange) (inScript : Bool) :
    ∃ back, ofDocument? inScript (Document.ofValue record.toValue) = some back ∧
      back = record.withoutNullId ∧
      (back = record ↔ record.id ≠ some Datum.null) ∧
      ∀ d : Descriptor, d.bind back = d.bind record ↔
        ¬(record.kind = .insert ∧ record.id = some Datum.null) :=
  ⟨record.withoutNullId, ofDocument?_toValue h inScript, rfl, record.withoutNullId_eq_iff,
    fun d => bind_withoutNullId_iff d record⟩

/-- An update two levels up, with an identity of null and a column of null. -/
def nullUpdate : Record :=
  (((new ⟨"order"⟩ .update).withId .null).withDepth (-2)).withValue "total" .null

theorem read_back_of_nullUpdate :
    nullUpdate.InRange ∧
      ∃ back, ofDocument? true (Document.ofValue nullUpdate.toValue) = some back ∧
        back.id = none ∧ back.values = nullUpdate.values ∧
        ∀ d : Descriptor, d.bind back = d.bind nullUpdate := by
  have hrange : nullUpdate.InRange := by
    decide
  obtain ⟨back, hread, rfl, -, hbind⟩ := read_back hrange true
  exact ⟨hrange, _, hread, rfl, rfl, fun d => (hbind d).2 (fun hinsert => nomatch hinsert.1)⟩

/-- An insert with an identity of null is read back without one, and binds to a statement with one
column less. -/
theorem null_identity_lost :
    ofDocument? false (Document.ofValue ((new ⟨"order"⟩ .insert).withId .null).toValue) =
        some (new ⟨"order"⟩ .insert) ∧
      new ⟨"order"⟩ .insert ≠ (new ⟨"order"⟩ .insert).withId .null ∧
      Descriptor.bind { root := ⟨"order"⟩, table := "orders" }
          ((new ⟨"order"⟩ .insert).withId .null) =
        ⟨"insert into orders (id) values (?)", [.null]⟩ ∧
      Descriptor.bind { root := ⟨"order"⟩, table := "orders" } (new ⟨"order"⟩ .insert) =
        ⟨"insert into orders () values ()", []⟩ := by
  decide

end Record

end Cascade
