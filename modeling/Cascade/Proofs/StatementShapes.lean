import Cascade.Coordinator.Submit
import Cascade.Counts
import Cascade.Proofs.Plans
import Cascade.Store.Memory
import Cascade.Text.Lines

/-!
# The shapes of statements

Record writes bind to inserts, updates and deletes of one shape each, with a
placeholder for each parameter.  An insert may fill no column.  An update has to
assign one, but nothing keeps out an update that gives no value, or a value for
the identity alone; what this binds to has nothing between its `set` and its
`where`.
-/

namespace Cascade

def isPlain : List Char → Bool
  | [] => false
  | first :: rest =>
      (first.isAlpha || first == '_') && rest.all (fun c => c.isAlphanum || c == '_')

/-- A name that needs no quotes: letters, digits and underscores, with no digit in front. -/
def PlainName (name : String) : Prop :=
  isPlain name.toList = true

instance : DecidablePred PlainName := fun name =>
  inferInstanceAs (Decidable (isPlain name.toList = true))

theorem PlainName.notMem {name : String} (h : PlainName name) {c : Char}
    (hletter : c.isAlphanum = false) (hunderscore : c ≠ '_') : c ∉ name.toList := by
  have hother : (c.isAlphanum || c == '_') = false := by
    simp [hletter, hunderscore]
  unfold PlainName at h
  cases hname : name.toList with
  | nil => exact List.not_mem_nil
  | cons first rest =>
      rw [hname, isPlain, Bool.and_eq_true] at h
      obtain ⟨hfirst, hrest⟩ := h
      rw [List.mem_cons, not_or]
      constructor
      · rintro rfl
        rw [Char.isAlphanum, Bool.or_eq_false_iff] at hletter
        simp [hletter.1, hunderscore] at hfirst
      · intro hmem
        exact absurd (List.all_eq_true.1 hrest c hmem) (by simp [hother])

/-- Items, by their number, with a comma and a space between neighbours. -/
inductive Listing (Item : String → Prop) : Nat → String → Prop
  | none : Listing Item 0 ""
  | one {item : String} (hitem : Item item) : Listing Item 1 item
  | more {item rest : String} {count : Nat} (hitem : Item item)
      (hrest : Listing Item (count + 1) rest) : Listing Item (count + 2) (item ++ ", " ++ rest)

/-- An assignment of a placeholder to a column. -/
def Assignment (Column : String → Prop) (text : String) : Prop :=
  ∃ column, Column column ∧ text = column ++ " = ?"

/-- The statements that a record write may bind to, by the number of their placeholders. -/
inductive WellShaped (table idColumn : String) (Column : String → Prop) : Nat → String → Prop
  | insert {count : Nat} {columns marks : String} (hcolumns : Listing Column count columns)
      (hmarks : Listing (· = "?") count marks) :
      WellShaped table idColumn Column count
        ("insert into " ++ table ++ " (" ++ columns ++ ") values (" ++ marks ++ ")")
  | update {count : Nat} {assignments : String}
      (hassignments : Listing (Assignment Column) (count + 1) assignments) :
      WellShaped table idColumn Column (count + 2)
        ("update " ++ table ++ " set " ++ assignments ++ " where " ++ idColumn ++ " = ?")
  | delete :
      WellShaped table idColumn Column 1
        ("delete from " ++ table ++ " where " ++ idColumn ++ " = ?")

namespace Descriptor

/-! ## Listed texts -/

theorem listed_cons_cons (text next : String) (rest : List String) :
    listed (text :: next :: rest) = text ++ ", " ++ listed (next :: rest) :=
  String.intercalate_cons_cons

theorem listing_iff {Item : String → Prop} {count : Nat} {text : String} :
    Listing Item count text ↔
      ∃ items : List String, items.length = count ∧ (∀ item ∈ items, Item item) ∧
        text = listed items := by
  constructor
  · intro h
    induction h with
    | none => exact ⟨[], rfl, by simp, rfl⟩
    | one hitem => exact ⟨[_], rfl, by simpa using hitem, rfl⟩
    | more hitem _ ih =>
        obtain ⟨items, hcount, hitems, rfl⟩ := ih
        obtain ⟨next, rest, rfl⟩ := List.exists_cons_of_length_eq_add_one hcount
        refine ⟨_ :: next :: rest, congrArg Nat.succ hcount, ?_, (listed_cons_cons _ _ _).symm⟩
        exact List.forall_mem_cons.2 ⟨hitem, hitems⟩
  · rintro ⟨items, rfl, hitems, rfl⟩
    induction items with
    | nil => exact .none
    | cons item rest ih =>
        obtain ⟨hitem, hrest⟩ := List.forall_mem_cons.1 hitems
        cases rest with
        | nil => exact .one hitem
        | cons next rest =>
            rw [listed_cons_cons]
            exact .more hitem (ih hrest)

/-- A listing holds the characters of its items, and those of the separators between them. -/
theorem count_listed (c : Char) {items : List String} (h : items ≠ []) :
    (listed items).toList.count c + ", ".toList.count c =
      sumOf (items.map (fun item => item.toList.count c)) +
        items.length * ", ".toList.count c := by
  induction items with
  | nil => exact absurd rfl h
  | cons item rest ih =>
      cases rest with
      | nil => simp [listed, sumOf]
      | cons next rest =>
          have hrest := ih (List.cons_ne_nil _ _)
          rw [listed_cons_cons, String.toList_append, String.toList_append, List.count_append,
            List.count_append, List.map_cons, sumOf, List.length_cons, Nat.succ_mul]
          omega

theorem commaless_iff {items : List String} (h : items ≠ []) :
    (∀ item ∈ items, ',' ∉ item.toList) ↔
      (listed items).toList.count ',' + 1 = items.length := by
  have hcount : (listed items).toList.count ',' + 1 =
      sumOf (items.map (fun item => item.toList.count ',')) + items.length * 1 :=
    count_listed ',' h
  rw [hcount, Nat.mul_one, Nat.add_eq_right, sumOf_eq_zero_iff]
  simp [List.count_eq_zero]

/-- Items without commas can be told apart in a listing. -/
theorem listed_inj_of_commaless
    {items others : List String} (hlength : items.length = others.length)
    (hitems : ∀ item ∈ items, ',' ∉ item.toList) (hothers : ∀ item ∈ others, ',' ∉ item.toList)
    (h : listed items = listed others) : items = others := by
  induction items generalizing others with
  | nil => exact (List.length_eq_zero_iff.1 hlength.symm).symm
  | cons item rest ih =>
      obtain ⟨other, others, rfl⟩ := List.exists_cons_of_length_eq_add_one hlength.symm
      obtain ⟨hitem, hrest⟩ := List.forall_mem_cons.1 hitems
      obtain ⟨hother, hrest'⟩ := List.forall_mem_cons.1 hothers
      have hlength' : rest.length = others.length := Nat.succ.inj hlength
      cases rest with
      | nil =>
          obtain rfl := List.length_eq_zero_iff.1 hlength'.symm
          exact congrArg ([·]) h
      | cons next rest =>
          obtain ⟨next', rest', rfl⟩ := List.exists_cons_of_length_eq_add_one hlength'.symm
          rw [listed_cons_cons, listed_cons_cons, ← String.toList_inj] at h
          simp only [String.toList_append, List.append_assoc] at h
          obtain ⟨hfirst, hothers⟩ := (Text.append_ending_inj hitem hother).1 h
          rw [String.toList_inj.1 hfirst,
            ih hlength' hrest hrest' (String.toList_inj.1 (List.cons.inj hothers).2)]

/-- Items without commas are the only ones, of their number, that are listed as they are. -/
theorem listed_inj
    {items others : List String} (hlength : items.length = others.length)
    (hothers : ∀ item ∈ others, ',' ∉ item.toList) (h : listed items = listed others) :
    items = others := by
  by_cases hnone : items = []
  · subst hnone
    exact (List.length_eq_zero_iff.1 hlength.symm).symm
  · have hnone' : others ≠ [] := by
      rwa [ne_eq, ← List.length_eq_zero_iff, ← hlength, List.length_eq_zero_iff]
    have hitems : ∀ item ∈ items, ',' ∉ item.toList := by
      rw [commaless_iff hnone, h, hlength]
      exact (commaless_iff hnone').1 hothers
    exact listed_inj_of_commaless hlength hitems hothers h

/-! ## The shapes of what is bound -/

/-- The columns that a record write names in its statement, the condition apart. -/
def boundColumns (d : Descriptor) (record : Record) : List String :=
  match record.kind with
  | .insert => (d.insertColumns record).map Prod.fst
  | .update => (d.columns record).map Prod.fst
  | .delete => []

variable {Column : String → Prop}

theorem bind_of_insert {d : Descriptor} {record : Record} (h : record.kind = .insert) :
    d.bind record = d.bindInsert record := by
  rw [bind, h]

theorem bind_of_update {d : Descriptor} {record : Record} (h : record.kind = .update) :
    d.bind record = d.bindUpdate record := by
  rw [bind, h]

theorem bind_of_delete {d : Descriptor} {record : Record} (h : record.kind = .delete) :
    d.bind record = d.bindDelete record := by
  rw [bind, h]

theorem length_bindInsert (d : Descriptor) (record : Record) :
    (d.bindInsert record).params.length = (d.insertColumns record).length :=
  List.length_map _

theorem length_bindUpdate (d : Descriptor) (record : Record) :
    (d.bindUpdate record).params.length = (d.columns record).length + 1 :=
  List.length_append.trans (congrArg (· + 1) (List.length_map _))

/-- What a record write binds to is of its shape, unless it is an update that assigns nothing. -/
theorem wellShaped_bind
    {d : Descriptor} {record : Record} (hsome : record.kind = .update → d.columns record ≠ [])
    (hcolumns : ∀ column ∈ d.boundColumns record, Column column) :
    WellShaped d.table d.idColumn Column (d.bind record).params.length (d.bind record).text := by
  unfold boundColumns at hcolumns
  cases hkind : record.kind with
  | insert =>
      rw [hkind] at hcolumns
      rw [bind_of_insert hkind]
      have hnames : Listing Column ((d.insertColumns record).map Prod.snd).length
          (listed ((d.insertColumns record).map Prod.fst)) :=
        listing_iff.2 ⟨_, by simp, hcolumns, rfl⟩
      have hmarks : Listing (· = "?") ((d.insertColumns record).map Prod.snd).length
          (listed ((d.insertColumns record).map (fun _ => "?"))) :=
        listing_iff.2 ⟨_, by simp, List.forall_mem_map.2 (fun _ _ => rfl), rfl⟩
      exact .insert hnames hmarks
  | update =>
      rw [hkind] at hcolumns
      obtain ⟨first, rest, hrest⟩ := List.exists_cons_of_ne_nil (hsome hkind)
      have hassignments : Listing (Assignment Column) (rest.length + 1)
          (listed ((d.columns record).map (fun column => column.1 ++ " = ?"))) := by
        refine listing_iff.2 ⟨_, by simp [hrest], ?_, rfl⟩
        simp only [List.forall_mem_map] at hcolumns ⊢
        exact fun column hcolumn => ⟨_, hcolumns column hcolumn, rfl⟩
      have hcount : (d.bindUpdate record).params.length = rest.length + 2 := by
        rw [length_bindUpdate, hrest, List.length_cons]
      rw [bind_of_update hkind, hcount]
      exact .update hassignments
  | delete =>
      rw [bind_of_delete hkind]
      exact .delete

theorem append_ne_append {front front' : String}
    (h : ∃ first second rest rest', front.toList = first :: rest ∧
      front'.toList = second :: rest' ∧ first ≠ second) (back back' : String) :
    front ++ back ≠ front' ++ back' := by
  obtain ⟨first, second, rest, rest', hfront, hfront', hne⟩ := h
  intro heq
  have hlists := congrArg String.toList heq
  rw [String.toList_append, String.toList_append, hfront, hfront'] at hlists
  exact hne (List.cons.inj hlists).1

/-- Only the production for updates leads to an update, and then from its assignments. -/
theorem listing_of_update
    {table idColumn assignments : String} {count : Nat}
    (h : WellShaped table idColumn Column count
      ("update " ++ table ++ " set " ++ assignments ++ " where " ++ idColumn ++ " = ?")) :
    ∃ others, count = others + 2 ∧ Listing (Assignment Column) (others + 1) assignments := by
  generalize htext :
    "update " ++ table ++ " set " ++ assignments ++ " where " ++ idColumn ++ " = ?" = text at h
  cases h with
  | insert =>
      simp only [String.append_assoc] at htext
      exact absurd htext (append_ne_append ⟨_, _, _, _, rfl, rfl, by decide⟩ _ _)
  | update hassignments =>
      simp only [String.append_left_inj, String.append_right_inj] at htext
      exact ⟨_, rfl, htext ▸ hassignments⟩
  | delete =>
      simp only [String.append_assoc] at htext
      exact absurd htext (append_ne_append ⟨_, _, _, _, rfl, rfl, by decide⟩ _ _)

/-- Only the production for inserts leads to an insert, and then from its columns. -/
theorem listing_of_insert
    {table idColumn columns marks : String} {count : Nat}
    (hmarks : marks = listed (List.replicate count "?"))
    (h : WellShaped table idColumn Column count
      ("insert into " ++ table ++ " (" ++ columns ++ ") values (" ++ marks ++ ")")) :
    Listing Column count columns := by
  generalize htext :
    "insert into " ++ table ++ " (" ++ columns ++ ") values (" ++ marks ++ ")" = text at h
  cases h with
  | insert hcolumns hmarks' =>
      obtain ⟨items, rfl, hitems, rfl⟩ := listing_iff.1 hmarks'
      rw [hmarks, List.eq_replicate_of_mem hitems, List.length_replicate] at htext
      simp only [String.append_left_inj, String.append_right_inj] at htext
      exact htext ▸ hcolumns
  | update =>
      simp only [String.append_assoc] at htext
      exact absurd htext (append_ne_append ⟨_, _, _, _, rfl, rfl, by decide⟩ _ _)
  | delete =>
      simp only [String.append_assoc] at htext
      exact absurd htext (append_ne_append ⟨_, _, _, _, rfl, rfl, by decide⟩ _ _)

theorem ne_empty_of_listing {text : String} {count : Nat}
    (h : Listing (Assignment Column) (count + 1) text) : text ≠ "" := by
  cases h with
  | one hitem =>
      obtain ⟨column, -, rfl⟩ := hitem
      rw [ne_eq, String.append_eq_empty_iff]
      exact fun hempty => absurd hempty.2 (by decide)
  | more =>
      rw [ne_eq, String.append_eq_empty_iff, String.append_eq_empty_iff]
      exact fun hempty => absurd hempty.1.2 (by decide)

/-- A statement of any number of placeholders is of the shape of an update only if something is
assigned in it. -/
theorem columns_ne_nil_of_wellShaped
    {d : Descriptor} {record : Record} {count : Nat} (hkind : record.kind = .update)
    (h : WellShaped d.table d.idColumn Column count (d.bind record).text) :
    d.columns record ≠ [] := by
  intro hnone
  rw [bind_of_update hkind] at h
  obtain ⟨others, -, hassignments⟩ := listing_of_update h
  rw [hnone] at hassignments
  exact ne_empty_of_listing hassignments rfl

/-- Columns without commas are those that a statement of its shape names.

A name may hold a separator, so that it reads like several; but then there are more commas than a
listing of as many items without commas has. -/
theorem boundColumns_of_wellShaped
    (hcomma : ∀ column, Column column → ',' ∉ column.toList) {d : Descriptor} {record : Record}
    (h : WellShaped d.table d.idColumn Column (d.bind record).params.length
      (d.bind record).text) :
    ∀ column ∈ d.boundColumns record, Column column := by
  unfold boundColumns
  cases hkind : record.kind with
  | insert =>
      rw [bind_of_insert hkind] at h
      have hmarks : listed ((d.insertColumns record).map (fun _ => "?")) =
          listed (List.replicate (d.bindInsert record).params.length "?") := by
        rw [length_bindInsert, List.map_const']
      obtain ⟨items, hlength, hitems, hlisted⟩ := listing_iff.1 (listing_of_insert hmarks h)
      rw [length_bindInsert] at hlength
      have hnames := listed_inj ((List.length_map _).trans hlength.symm)
        (fun item hitem => hcomma item (hitems item hitem)) hlisted
      dsimp only
      rwa [hnames]
  | update =>
      rw [bind_of_update hkind] at h
      have hcount := d.length_bindUpdate record
      obtain ⟨others, hothers, hassignments⟩ := listing_of_update h
      obtain ⟨items, hlength, hitems, hlisted⟩ := listing_iff.1 hassignments
      have hcommaless : ∀ item ∈ items, ',' ∉ item.toList := by
        intro item hitem
        obtain ⟨column, hcolumn, rfl⟩ := hitems item hitem
        rw [String.toList_append, List.mem_append, not_or]
        exact ⟨hcomma column hcolumn, by decide⟩
      have hnames := listed_inj (by rw [List.length_map]; omega) hcommaless hlisted
      simp only [← hnames, List.forall_mem_map] at hitems ⊢
      intro column hcolumn
      obtain ⟨name, hname, heq⟩ := hitems column hcolumn
      rwa [(String.append_left_inj _).1 heq]
  | delete => simp

/-! ## Placeholders -/

theorem count_mark_listed (each : Nat) {items : List String}
    (h : ∀ item ∈ items, item.toList.count '?' = each) :
    (listed items).toList.count '?' = items.length * each := by
  by_cases hnone : items = []
  · subst hnone
    exact (Nat.zero_mul each).symm
  · refine (count_listed '?' hnone).trans ?_
    rw [List.map_congr_left h, List.map_const', sumOf_replicate]
    rfl

/-- A record write with plain names binds to a text with a placeholder for each parameter. -/
theorem count_mark_bind
    {d : Descriptor} {record : Record} (htable : '?' ∉ d.table.toList)
    (hid : '?' ∉ d.idColumn.toList)
    (hcolumns : ∀ column ∈ d.boundColumns record, '?' ∉ column.toList) :
    (d.bind record).text.toList.count '?' = (d.bind record).params.length := by
  rw [← List.count_eq_zero] at htable hid
  simp only [← List.count_eq_zero] at hcolumns
  unfold boundColumns at hcolumns
  cases hkind : record.kind with
  | insert =>
      rw [hkind] at hcolumns
      have hnames := count_mark_listed 0 hcolumns
      have hmarks : (listed ((d.insertColumns record).map (fun _ => "?"))).toList.count '?' =
          (d.insertColumns record).length := by
        rw [count_mark_listed 1 (List.forall_mem_map.2 (fun _ _ => rfl)), List.length_map]
        exact Nat.mul_one _
      have htext : (d.bindInsert record).text = "insert into " ++ d.table ++ " (" ++
          listed ((d.insertColumns record).map Prod.fst) ++ ") values (" ++
          listed ((d.insertColumns record).map (fun _ => "?")) ++ ")" :=
        rfl
      rw [bind_of_insert hkind, length_bindInsert, htext]
      simp only [String.toList_append, List.count_append, htable, hnames, hmarks, Nat.mul_zero]
      change 0 + 0 + 0 + 0 + 0 + (d.insertColumns record).length + 0 = _
      omega
  | update =>
      rw [hkind] at hcolumns
      have hassignments : (listed ((d.columns record).map
          (fun column => column.1 ++ " = ?"))).toList.count '?' = (d.columns record).length := by
        rw [count_mark_listed 1, List.length_map, Nat.mul_one]
        simp only [List.forall_mem_map] at hcolumns ⊢
        intro column hcolumn
        rw [String.toList_append, List.count_append, hcolumns column hcolumn]
        rfl
      have htext : (d.bindUpdate record).text = "update " ++ d.table ++ " set " ++
          listed ((d.columns record).map (fun column => column.1 ++ " = ?")) ++ " where " ++
          d.idColumn ++ " = ?" :=
        rfl
      rw [bind_of_update hkind, length_bindUpdate, htext]
      simp only [String.toList_append, List.count_append, htable, hassignments, hid]
      change 0 + 0 + 0 + (d.columns record).length + 0 + 0 + 1 = _
      omega
  | delete =>
      have htext : (d.bindDelete record).text =
          "delete from " ++ d.table ++ " where " ++ d.idColumn ++ " = ?" :=
        rfl
      rw [bind_of_delete hkind, htext]
      simp only [String.toList_append, List.count_append, htable, hid]
      rfl

/-- A deletion names no column, any other write those of its values, and an insert may name the
identity besides. -/
theorem forall_boundColumns_iff {d : Descriptor} (record : Record) (hid : Column d.idColumn) :
    (∀ column ∈ d.boundColumns record, Column column) ↔
      (record.kind ≠ .delete → ∀ column ∈ d.columns record, Column column.1) := by
  unfold boundColumns
  cases hkind : record.kind with
  | insert =>
      unfold insertColumns
      cases record.id with
      | none => simp
      | some id => simp [hid]
  | update => simp
  | delete => simp

end Descriptor

namespace Coordinator

variable {σ : Type}

theorem contains_of_submitRecord [Store σ] {ctx : Context} {record : Record} {batch : Bool}
    {c : Coordinator} {b : Backing σ}
    (h : (c.submitRecord ctx record batch b).1 ≠ .error (.unknownRoot record.root)) :
    ctx.registry.contains record.root = true := by
  by_contra hunknown
  rw [submitRecord, if_neg hunknown] at h
  exact h rfl

/-- A record write that a coordinator does not refuse binds to a statement of its shape, with a
placeholder for each parameter, exactly if it is not an update that assigns nothing. -/
theorem wellShaped_of_submitRecord_iff [Store σ]
    (ctx : Context) (record : Record) (batch : Bool) (c : Coordinator) (b : Backing σ)
    (hplain : ∀ d, ctx.registry.get? record.root = some d →
      PlainName d.table ∧ PlainName d.idColumn)
    (haccepted : (c.submitRecord ctx record batch b).1 ≠ .error (.unknownRoot record.root)) :
    ∃ d bound, ctx.registry.get? record.root = some d ∧
      ctx.registry.bind record = .ok bound ∧
      (WellShaped d.table d.idColumn (fun _ => True) bound.params.length bound.text ↔
        (record.kind = .update → d.columns record ≠ [])) ∧
      (WellShaped d.table d.idColumn PlainName bound.params.length bound.text ↔
        (record.kind = .update → d.columns record ≠ []) ∧
          (record.kind ≠ .delete → ∀ column ∈ d.columns record, PlainName column.1)) ∧
      ((record.kind ≠ .delete → ∀ column ∈ d.columns record, PlainName column.1) →
        bound.text.toList.count '?' = bound.params.length) := by
  obtain ⟨d, hd⟩ := Registry.exists_get?_of_contains (contains_of_submitRecord haccepted)
  obtain ⟨htable, hid⟩ := hplain d hd
  refine ⟨d, d.bind record, hd, by rw [Registry.bind, hd], ?_, ?_, ?_⟩
  · constructor
    · exact fun h hkind => Descriptor.columns_ne_nil_of_wellShaped hkind h
    · exact fun h => Descriptor.wellShaped_bind h (fun _ _ => trivial)
  · rw [← Descriptor.forall_boundColumns_iff record hid]
    constructor
    · intro h
      have hcomma : ∀ column, PlainName column → ',' ∉ column.toList := fun column hcolumn =>
        hcolumn.notMem (by decide) (by decide)
      exact ⟨fun hkind => Descriptor.columns_ne_nil_of_wellShaped hkind h,
        Descriptor.boundColumns_of_wellShaped hcomma h⟩
    · rintro ⟨hassigned, hnames⟩
      exact Descriptor.wellShaped_bind hassigned hnames
  · rw [← Descriptor.forall_boundColumns_iff record hid]
    intro hnames
    exact Descriptor.count_mark_bind (htable.notMem (by decide) (by decide))
      (hid.notMem (by decide) (by decide))
      (fun column hcolumn => (hnames column hcolumn).notMem (by decide) (by decide))

def orders : Descriptor := { root := ⟨"order"⟩, table := "orders" }

def ordersContext : Context := ⟨.ofList [orders], "t", false⟩

/-- An update of an order that gives a value for its identity alone. -/
def renumbering : Record :=
  ((Record.new ⟨"order"⟩ .update).withId (.ofNat 7)).withValue "id" (.ofNat 8)

theorem plainName_orders : PlainName orders.table ∧ PlainName orders.idColumn := by
  decide

theorem wellShaped_of_renumbering_with_total :
    let record := renumbering.withValue "total" (.ofNat 5)
    (∀ d, ordersContext.registry.get? record.root = some d →
        PlainName d.table ∧ PlainName d.idColumn) ∧
      (submitRecord ordersContext record false (new {}) { store := ({} : Memory) }).1 =
        .ok (.executed 1 none) ∧
      WellShaped "orders" "id" PlainName 2 "update orders set total = ? where id = ?" := by
  intro record
  have hplain : ∀ d, ordersContext.registry.get? record.root = some d →
      PlainName d.table ∧ PlainName d.idColumn := by
    intro d hd
    obtain rfl : orders = d := Option.some.inj hd
    exact plainName_orders
  have hexecuted : (submitRecord ordersContext record false (new {})
      { store := ({} : Memory) }).1 = .ok (.executed 1 none) := by
    decide
  obtain ⟨d, bound, hd, hbound, -, hshape, -⟩ :=
    wellShaped_of_submitRecord_iff ordersContext record false (new {}) { store := ({} : Memory) }
      hplain (by rw [hexecuted]; exact nofun)
  obtain rfl : orders = d := Option.some.inj hd
  obtain rfl : (⟨"update orders set total = ? where id = ?", [.ofNat 5, .ofNat 7]⟩ : Statement) =
      bound :=
    Except.ok.inj hbound
  refine ⟨hplain, hexecuted, hshape.2 ⟨fun _ => ?_, fun _ => ?_⟩⟩
  · decide
  · have hcolumns : orders.columns record = [("total", .ofNat 5)] := by
      decide
    rw [hcolumns, List.forall_mem_singleton]
    decide

/-- An update whose only value is for the identity is executed with nothing to assign. -/
theorem update_without_assignment :
    (PlainName orders.table ∧ PlainName orders.idColumn) ∧
      (submitRecord ordersContext renumbering false (new {}) { store := ({} : Memory) }).1 =
        .ok (.executed 1 none) ∧
      ordersContext.registry.bind renumbering =
        .ok ⟨"update orders set  where id = ?", [.ofNat 7]⟩ ∧
      ∀ Column count, ¬WellShaped orders.table orders.idColumn Column count
        "update orders set  where id = ?" := by
  refine ⟨plainName_orders, by decide, by decide, ?_⟩
  intro Column count h
  have hsome : orders.columns renumbering ≠ [] :=
    Descriptor.columns_ne_nil_of_wellShaped rfl h
  exact hsome (by decide)

end Coordinator

end Cascade
