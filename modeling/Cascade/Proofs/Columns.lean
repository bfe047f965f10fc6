import Mathlib.Data.List.Sort
import Cascade.Proofs.ByteOrder
import Cascade.Proofs.Pieces
import Cascade.Proofs.Precedence
import Cascade.Proofs.StatementShapes

/-!
# Columns and parameters

A record write is bound column by column: each column that the text names has
one parameter at its place, and a value given for the identity column is passed
over.  So the text depends on which columns there are, and on nothing that is
written to them.  Writes of one shape have one text, and where they wait one
behind the other they are sent by one call until that call is full.
-/

namespace Cascade

open Json

def Record.withValues (given : List (String × Datum)) (record : Record) : Record :=
  given.foldl (fun record column => record.withValue column.1 column.2) record

theorem Record.withValues_eq (given : List (String × Datum)) (record : Record) :
    record.withValues given = { record with values := record.values.insertAll given } := by
  induction given generalizing record with
  | nil => rfl
  | cons column rest ih => exact ih (record.withValue column.1 column.2)

namespace Descriptor

/-! ## What a record write is bound to -/

/-- Some names are the columns that a write gives values for, the identity column apart, in the
order of their bytes. -/
structure Names (d : Descriptor) (record : Record) (names : List String) : Prop where
  ascending : names.Pairwise (fun a b => Text.bytes a < Text.bytes b)
  mem_iff : ∀ name, name ∈ names ↔ record.values.contains name = true ∧ name ≠ d.idColumn

/-- The columns that an insert names: the identity column in front if the write has an identity. -/
def insertNames (d : Descriptor) (record : Record) (names : List String) : List String :=
  if record.id.isSome then d.idColumn :: names else names

/-- What a write has for a column: its identity, or the value given for any other column. -/
def valueOf? (d : Descriptor) (record : Record) (column : String) : Option Datum :=
  if column = d.idColumn then record.id else record.values.get? column

/-- Some parameters are what a write has for some columns, each at the place of its column. -/
def Fills (d : Descriptor) (record : Record) (columns : List String) (params : List Datum) : Prop :=
  List.Forall₂ (fun column param => d.valueOf? record column = some param) columns params

/-- A statement is the one that a write is bound to, given the names of its columns. -/
inductive Aligned (d : Descriptor) (record : Record) (names : List String) : Statement → Prop
  | insert {params : List Datum} (hkind : record.kind = .insert)
      (hparams : d.Fills record (d.insertNames record names) params) :
      Aligned d record names
        { text := "insert into " ++ d.table ++ " (" ++ ", ".intercalate (d.insertNames record names)
            ++ ") values (" ++ ", ".intercalate (List.replicate params.length "?") ++ ")"
          params := params }
  | update {params : List Datum} (hkind : record.kind = .update)
      (hparams : d.Fills record names params) :
      Aligned d record names
        { text := "update " ++ d.table ++ " set "
            ++ ", ".intercalate (names.map (fun name => name ++ " = ?"))
            ++ " where " ++ d.idColumn ++ " = ?"
          params := params ++ [record.id.getD Datum.null] }
  | delete (hkind : record.kind = .delete) :
      Aligned d record names
        { text := "delete from " ++ d.table ++ " where " ++ d.idColumn ++ " = ?"
          params := [record.id.getD Datum.null] }

variable {d : Descriptor} {record : Record} {names others : List String}

theorem mem_columns_iff {column : String × Datum} :
    column ∈ d.columns record ↔
      record.values.get? column.1 = some column.2 ∧ column.1 ≠ d.idColumn := by
  rw [columns, List.mem_filter, ← Dictionary.mem_entries_iff, bne_iff_ne]

theorem ascending_columns (d : Descriptor) (record : Record) :
    Assoc.Ascending (d.columns record) :=
  record.values.ascending.filter _

theorem names_columns (d : Descriptor) (record : Record) :
    d.Names record ((d.columns record).map Prod.fst) where
  ascending := by
    rw [List.pairwise_map]
    exact (ascending_columns d record).imp Text.bytes_lt_iff.2
  mem_iff := by
    intro name
    rw [Dictionary.contains_iff, List.mem_map]
    constructor
    · rintro ⟨column, hcolumn, rfl⟩
      obtain ⟨hvalue, hother⟩ := mem_columns_iff.1 hcolumn
      exact ⟨⟨_, hvalue⟩, hother⟩
    · rintro ⟨⟨value, hvalue⟩, hother⟩
      exact ⟨(name, value), mem_columns_iff.2 ⟨hvalue, hother⟩, rfl⟩

theorem Names.unique (h : d.Names record names) (hothers : d.Names record others) :
    names = others := by
  have hsame : ∀ name, name ∈ names ↔ name ∈ others := fun name =>
    (h.mem_iff name).trans (hothers.mem_iff name).symm
  exact (h.ascending.imp Text.bytes_lt_iff.1).eq_of_mem_iff
    (hothers.ascending.imp Text.bytes_lt_iff.1) hsame

theorem insertNames_columns (d : Descriptor) (record : Record) :
    d.insertNames record ((d.columns record).map Prod.fst) =
      (d.insertColumns record).map Prod.fst := by
  rw [insertNames, insertColumns]
  cases record.id with
  | none => rfl
  | some id => rfl

theorem valueOf?_of_mem_columns {column : String × Datum} (h : column ∈ d.columns record) :
    d.valueOf? record column.1 = some column.2 := by
  obtain ⟨hvalue, hother⟩ := mem_columns_iff.1 h
  rw [valueOf?, if_neg hother, hvalue]

theorem valueOf?_of_mem_insertColumns
    {column : String × Datum} (h : column ∈ d.insertColumns record) :
    d.valueOf? record column.1 = some column.2 := by
  rw [insertColumns] at h
  cases hid : record.id with
  | none =>
      rw [hid] at h
      exact valueOf?_of_mem_columns h
  | some id =>
      rw [hid] at h
      rcases List.mem_cons.1 h with rfl | h
      · rw [valueOf?, if_pos rfl, hid]
      · exact valueOf?_of_mem_columns h

theorem fills_of_forall_mem
    {columns : List (String × Datum)}
    (h : ∀ column ∈ columns, d.valueOf? record column.1 = some column.2) :
    d.Fills record (columns.map Prod.fst) (columns.map Prod.snd) := by
  rw [Fills, List.forall₂_map_left_iff, List.forall₂_map_right_iff, List.forall₂_same]
  exact h

/-- A record write is bound to the statement with each parameter at the place of its column. -/
theorem aligned_bind (hnames : d.Names record names) : d.Aligned record names (d.bind record) := by
  obtain rfl := hnames.unique (names_columns d record)
  cases hkind : record.kind with
  | insert =>
      have hfills : d.Fills record (d.insertNames record ((d.columns record).map Prod.fst))
          ((d.insertColumns record).map Prod.snd) := by
        rw [insertNames_columns]
        exact fills_of_forall_mem (fun _ => valueOf?_of_mem_insertColumns)
      have haligned := Aligned.insert hkind hfills
      -- a placeholder for each parameter is one for each column
      rw [List.length_map, ← List.map_const', insertNames_columns] at haligned
      rw [bind_of_insert hkind]
      exact haligned
  | update =>
      have hfills : d.Fills record ((d.columns record).map Prod.fst)
          ((d.columns record).map Prod.snd) :=
        fills_of_forall_mem (fun _ => valueOf?_of_mem_columns)
      have haligned := Aligned.update hkind hfills
      rw [List.map_map] at haligned
      rw [bind_of_update hkind]
      exact haligned
  | delete =>
      rw [bind_of_delete hkind]
      exact .delete hkind

/-! ## Writes of one shape -/

/-- Two writes give values for the same columns, the identity column apart, in the same way. -/
structure SameShape (d : Descriptor) (a b : Record) : Prop where
  kind : a.kind = b.kind
  /-- The values need not be the same. -/
  columns : ∀ name, name ≠ d.idColumn →
    (a.values.contains name = true ↔ b.values.contains name = true)
  /-- Both inserts have an identity, or neither has one. -/
  identified : a.kind = .insert → a.id.isSome = b.id.isSome

variable {a b : Record}

theorem Names.of_sameShape (h : d.SameShape a b) (hnames : d.Names a names) : d.Names b names where
  ascending := hnames.ascending
  mem_iff := by
    intro name
    rw [hnames.mem_iff]
    exact and_congr_left (h.columns name)

theorem SameShape.withValues
    (h : d.SameShape a b) {given added : List (String × Datum)}
    (hgiven : ∀ name, name ≠ d.idColumn →
      (name ∈ given.map Prod.fst ↔ name ∈ added.map Prod.fst)) :
    d.SameShape (a.withValues given) (b.withValues added) := by
  rw [Record.withValues_eq, Record.withValues_eq]
  refine ⟨h.kind, fun name hname => ?_, h.identified⟩
  rw [Dictionary.contains_insertAll_iff, Dictionary.contains_insertAll_iff]
  exact or_congr (hgiven name hname) (h.columns name hname)

/-- Statements of writes of one shape have one text and equally many parameters. -/
theorem Aligned.of_sameShape
    {s t : Statement} (ha : d.Aligned a names s) (hb : d.Aligned b names t)
    (h : d.SameShape a b) : s.text = t.text ∧ s.params.length = t.params.length := by
  cases ha with
  | insert hinsert hparams =>
      cases hb with
      | insert _ hothers =>
          have hnames : d.insertNames a names = d.insertNames b names := by
            rw [insertNames, insertNames, h.identified hinsert]
          rw [hnames] at hparams ⊢
          have hlength := hparams.length_eq.symm.trans hothers.length_eq
          exact ⟨by rw [hlength], hlength⟩
      | update hother _ | delete hother => exact nomatch hinsert.symm.trans (h.kind.trans hother)
  | update hupdate hparams =>
      cases hb with
      | update _ hothers =>
          have hlength := hparams.length_eq.symm.trans hothers.length_eq
          exact ⟨rfl, by simp [hlength]⟩
      | insert hother _ | delete hother => exact nomatch hupdate.symm.trans (h.kind.trans hother)
  | delete hdelete =>
      cases hb with
      | delete _ => exact ⟨rfl, rfl⟩
      | insert hother _ | update hother _ => exact nomatch hdelete.symm.trans (h.kind.trans hother)

theorem bind_of_sameShape (h : d.SameShape a b) :
    (d.bind a).text = (d.bind b).text ∧ (d.bind a).params.length = (d.bind b).params.length := by
  have hnames := names_columns d a
  exact (aligned_bind hnames).of_sameShape (aligned_bind (hnames.of_sameShape h)) h

/-- Nothing of a statement comes from a value given for the identity column. -/
theorem bind_congr
    (hkind : a.kind = b.kind) (hid : a.id = b.id)
    (hvalues : ∀ name, name ≠ d.idColumn → a.values.get? name = b.values.get? name) :
    d.bind a = d.bind b := by
  have hcolumns : d.columns a = d.columns b := by
    refine (ascending_columns d a).ext (ascending_columns d b) ?_
    intro column
    refine mem_columns_iff.trans (Iff.trans ?_ mem_columns_iff.symm)
    refine and_congr_left (fun hother => ?_)
    rw [hvalues column.1 hother]
  cases hb : b.kind with
  | insert =>
      have hinsert : d.insertColumns a = d.insertColumns b := by
        rw [insertColumns, insertColumns, hid, hcolumns]
      rw [bind_of_insert (hkind.trans hb), bind_of_insert hb]
      unfold bindInsert
      rw [hinsert]
  | update =>
      rw [bind_of_update (hkind.trans hb), bind_of_update hb]
      unfold bindUpdate
      rw [hcolumns, hid]
  | delete =>
      rw [bind_of_delete (hkind.trans hb), bind_of_delete hb]
      unfold bindDelete
      rw [hid]

end Descriptor

/-! ## Writes of one shape in a flush -/

section Flush

variable {registry : Registry} {d : Descriptor} {a b : Record} {id next : RequestId}
  {before after : List (RequestId × Record)}

/-- Writes of one shape that wait one behind the other are sent by one call of their group, unless
that call is full with the first of them. -/
theorem RecordGroup.neighbours_of_sameShape
    (batchSize : Nat) {group : RecordGroup}
    (hknown : ∀ write ∈ group.pending, registry.contains write.2.root)
    (hpending : group.pending = before ++ (id, a) :: (next, b) :: after)
    (ha : registry.get? a.root = some d) (hb : registry.get? b.root = some d)
    (h : d.SameShape a b) :
    Neighbours (max batchSize 1) ((d.bind a).parcel (some id)) ((d.bind b).parcel (some next))
      ((group.calls registry batchSize).map StatementGroup.parcels) := by
  have hfirst : registry.parcel? (id, a) = some ((d.bind a).parcel (some id)) := by
    rw [Registry.parcel?, ha, Option.map_some]
  have hsecond : registry.parcel? (next, b) = some ((d.bind b).parcel (some next)) := by
    rw [Registry.parcel?, hb, Option.map_some]
  have hparcels : group.parcels registry = before.filterMap registry.parcel? ++
      (d.bind a).parcel (some id) :: (d.bind b).parcel (some next) ::
        after.filterMap registry.parcel? := by
    rw [parcels, hpending, List.filterMap_append, List.filterMap_cons_some hfirst,
      List.filterMap_cons_some hsecond]
  exact neighbours_calls batchSize hknown hparcels
    (congrArg normalText (Descriptor.bind_of_sameShape h).1)

namespace Coordinator

variable {c : Coordinator} {group : RecordGroup}

theorem neighbours_of_group
    {size : Nat} {first second : Parcel} (hgroup : group ∈ c.window.values)
    (h : Neighbours size first second
      ((group.calls registry c.policy.batchSize).map StatementGroup.parcels)) :
    Neighbours size first second ((c.calls registry).map StatementGroup.parcels) := by
  obtain ⟨earlier, later, hordered⟩ := List.append_of_mem (mem_ordered_iff.2 hgroup)
  rw [calls, hordered, List.flatMap_append, List.flatMap_cons, List.map_append, List.map_append,
    List.map_append, ← List.append_assoc, ← List.append_assoc]
  exact h.append _ _

theorem WellFormed.root_of_mem_pending
    {n : Nat} (hwell : c.WellFormed registry n) (hgroup : group ∈ c.window.values)
    {write : RequestId × Record} (hmem : write ∈ group.pending) : write.2.root = group.root := by
  obtain ⟨entry, hentry, rfl⟩ := List.mem_map.1 hgroup
  have hsound := hwell.sound entry hentry
  exact (hsound.members write hmem).trans hsound.own.symm

theorem WellFormed.neighbours_of_sameShape
    {n : Nat} (hwell : c.WellFormed registry n) (hgroup : group ∈ c.window.values)
    (hd : registry.get? group.root = some d)
    (hpending : group.pending = before ++ (id, a) :: (next, b) :: after) (h : d.SameShape a b) :
    Neighbours (max c.policy.batchSize 1) ((d.bind a).parcel (some id))
      ((d.bind b).parcel (some next)) ((c.calls registry).map StatementGroup.parcels) := by
  have hroot : ∀ write ∈ group.pending, registry.get? write.2.root = some d := by
    intro write hmem
    rw [hwell.root_of_mem_pending hgroup hmem, hd]
  apply neighbours_of_group hgroup
  apply RecordGroup.neighbours_of_sameShape _ (hwell.sendable.known group hgroup) hpending
  · exact hroot (id, a) (by simp [hpending])
  · exact hroot (next, b) (by simp [hpending])
  · exact h

end Coordinator

end Flush

/-! ## The shape of a write settles its statement -/

namespace Descriptor

open Coordinator

/-- What a record write is bound to, and what it has in common with the writes of its shape. -/
structure BoundByShape (d : Descriptor) (record : Record) : Prop where
  /-- Each parameter stands at the place of its column. -/
  aligned : ∃ names, d.Names record names ∧ d.Aligned record names (d.bind record)
  /-- A value given for the identity column is never bound: it makes no difference to the
  statement. -/
  passedOver : ∀ other : Record, other.kind = record.kind → other.id = record.id →
    (∀ name, name ≠ d.idColumn → other.values.get? name = record.values.get? name) →
      d.bind other = d.bind record
  /-- Writes of one shape have one text and equally many parameters, also when both are given values
  for the same further columns, in whatever order. -/
  alike : ∀ other, d.SameShape record other → ∀ given added : List (String × Datum),
    (∀ name, name ≠ d.idColumn →
      (name ∈ given.map Prod.fst ↔ name ∈ added.map Prod.fst)) →
    (d.bind (record.withValues given)).text = (d.bind (other.withValues added)).text ∧
      (d.bind (record.withValues given)).params.length =
        (d.bind (other.withValues added)).params.length
  /-- Where a write of its shape waits behind it in a group, a flush sends both by one call, unless
  that call is full with the first of them. -/
  shared : ∀ other, d.SameShape record other →
    ∀ {σ : Type} [Store σ] {ctx : Context} {c : Coordinator}, Reachable ctx c →
    ∀ group ∈ c.window.values, ctx.registry.get? group.root = some d →
    ∀ before id next after, group.pending = before ++ (id, record) :: (next, other) :: after →
    ∀ (reset : Bool) (b : Backing (Watched σ)),
      FlushMakes ctx reset c b (c.calls ctx.registry) ∧
        Neighbours (max c.policy.batchSize 1) ((d.bind record).parcel (some id))
          ((d.bind other).parcel (some next)) ((c.calls ctx.registry).map StatementGroup.parcels)

/-- Every record write is bound by its shape. -/
theorem bound_by_shape (d : Descriptor) (record : Record) : d.BoundByShape record where
  aligned := ⟨_, names_columns d record, aligned_bind (names_columns d record)⟩
  passedOver := fun _ hkind hid hvalues => bind_congr hkind hid hvalues
  alike := fun _ h _ _ hgiven => bind_of_sameShape (h.withValues hgiven)
  shared := by
    intro other h σ _ ctx c hc group hgroup hd before id next after hpending reset b
    obtain ⟨n, -, hwell⟩ := hc.wellFormed
    exact ⟨flushMakes_calls ctx reset hwell.sendable b,
      hwell.neighbours_of_sameShape hgroup hd hpending h⟩

def anOrder (id : Nat) (given : List (String × Datum)) : Record :=
  ((Record.new ⟨"order"⟩ .insert).withId (.ofNat id)).withValues given

def firstOrder : Record :=
  anOrder 1 [("total", .ofNat 5), ("customer", .ofNat 4)]

/-- It has another value for its identity, which is passed over. -/
def secondOrder : Record :=
  anOrder 2 [("customer", .ofNat 4), ("id", .ofNat 9), ("total", .ofNat 7)]

def twoOrders : Coordinator :=
  (performAll ordersContext
    [.submit (.record firstOrder) true, .submit (.record secondOrder) true] (.new {}) untouched).2.1

theorem sameShape_orders : orders.SameShape firstOrder secondOrder := by
  have hinserts : orders.SameShape ((Record.new ⟨"order"⟩ .insert).withId (.ofNat 1))
      ((Record.new ⟨"order"⟩ .insert).withId (.ofNat 2)) :=
    ⟨rfl, fun _ _ => Iff.rfl, fun _ => rfl⟩
  refine hinserts.withValues (fun name hname => ?_)
  have hid : name ≠ "id" := hname
  simp [hid, or_comm]

theorem bound_by_shape_of_two_orders :
    orders.SameShape firstOrder secondOrder ∧
      Reachable ordersContext twoOrders ∧
      (∃ names, orders.Names firstOrder names ∧ orders.Aligned firstOrder names
        ⟨"insert into orders (id, customer, total) values (?, ?, ?)",
          [.ofNat 1, .ofNat 4, .ofNat 5]⟩) ∧
      orders.bind secondOrder = ⟨"insert into orders (id, customer, total) values (?, ?, ?)",
        [.ofNat 2, .ofNat 4, .ofNat 7]⟩ ∧
      FlushMakes ordersContext false twoOrders untouched (twoOrders.calls ordersContext.registry) ∧
      Neighbours 20 ((orders.bind firstOrder).parcel (some ⟨1⟩))
        ((orders.bind secondOrder).parcel (some ⟨2⟩))
        ((twoOrders.calls ordersContext.registry).map StatementGroup.parcels) ∧
      (twoOrders.flush ordersContext untouched).2.2.store.seen.map
        (fun sight => (sight.call.text, sight.call.setCount?)) =
          [("insert into orders (id, customer, total) values (?, ?, ?)", some 2)] := by
  have hreachable : Reachable ordersContext twoOrders :=
    (Reachable.new {}).performAll _ untouched
  have hwindow : twoOrders.window.values =
      [⟨⟨"order"⟩, 100, 0, [(⟨1⟩, firstOrder), (⟨2⟩, secondOrder)]⟩] := by
    decide
  have hbound := bound_by_shape orders firstOrder
  obtain ⟨hmakes, hneighbours⟩ := hbound.shared secondOrder sameShape_orders hreachable _
    (hwindow ▸ List.mem_singleton_self _) rfl [] ⟨1⟩ ⟨2⟩ [] rfl false untouched
  exact ⟨sameShape_orders, hreachable, hbound.aligned, by decide, hmakes, hneighbours,
    by decide +kernel⟩

end Descriptor

end Cascade
