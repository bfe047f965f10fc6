import Cascade.Proofs.Entries
import Cascade.Record.Json

/-!
# Reading what was written

A canonical value is the value of the document that spells it.  An object that
is written from members with different keys has the fields that they name,
wherever the order of keys has put them, so a field that is written is read as
what its own reader makes of it.
-/

namespace Cascade

namespace Assoc

variable {κ β : Type} [KeyOrder κ]

theorem insert_of_forall_lt
    {key : κ} {entries : List (κ × β)} (h : ∀ entry ∈ entries, entry.1 < key) (value : β) :
    insert key value entries = entries ++ [(key, value)] := by
  induction entries with
  | nil => rfl
  | cons head rest ih =>
      have hlt : head.1 < key := h head List.mem_cons_self
      have hnot : ¬key < head.1 := fun hgt => KeyOrder.irrefl key (KeyOrder.trans hgt hlt)
      simp [insert, hlt, hnot, ih (fun entry hmem => h entry (List.mem_cons_of_mem _ hmem))]

theorem foldl_insert_of_ascending
    (held : List (κ × β)) {pairs : List (κ × β)} (h : Ascending (held ++ pairs)) :
    pairs.foldl (fun held pair => insert pair.1 pair.2 held) held = held ++ pairs := by
  induction pairs generalizing held with
  | nil => simp
  | cons pair rest ih =>
      have hbehind : ∀ entry ∈ held, entry.1 < pair.1 := fun entry hmem =>
        (List.pairwise_append.1 h).2.2 entry hmem pair List.mem_cons_self
      have hrest : Ascending (held ++ [pair] ++ rest) := by simpa using h
      rw [List.foldl_cons, insert_of_forall_lt hbehind, ih _ hrest]
      simp

/-- Entries that are listed by key are collected as they are. -/
theorem collect_of_ascending {entries : List (κ × β)} (h : Ascending entries) :
    collect entries = entries :=
  foldl_insert_of_ascending [] h

theorem insert_of_forall_gt
    {key : κ} {entries : List (κ × β)} (h : ∀ entry ∈ entries, key < entry.1) (value : β) :
    insert key value entries = (key, value) :: entries := by
  cases entries with
  | nil => rfl
  | cons head rest => exact if_pos (h head List.mem_cons_self)

theorem filter_insert
    {entries : List (κ × β)} (h : Ascending entries) (keep : κ → Bool) (key : κ) (value : β) :
    (insert key value entries).filter (fun entry => keep entry.1) =
      if keep key then insert key value (entries.filter (fun entry => keep entry.1))
      else entries.filter (fun entry => keep entry.1) := by
  induction entries with
  | nil => by_cases hkey : keep key = true <;> simp [insert, hkey]
  | cons head rest ih =>
      obtain ⟨hhead, hrest⟩ := List.pairwise_cons.1 h
      by_cases hlt : key < head.1
      · have hfront : ∀ entry ∈ (head :: rest).filter (fun entry => keep entry.1),
            key < entry.1 := by
          intro entry hmem
          rcases List.mem_cons.1 ((List.mem_filter.1 hmem).1) with rfl | hmem
          · exact hlt
          · exact KeyOrder.trans hlt (hhead entry hmem)
        rw [insert_of_forall_gt hfront, insert, if_pos hlt, List.filter_cons]
      · by_cases hgt : head.1 < key
        · by_cases hkeep : keep head.1 = true <;> by_cases hkey : keep key = true <;>
            simp [insert, hlt, hgt, hkeep, hkey, ih hrest]
        · have heq : key = head.1 := KeyOrder.eq_of_not_lt hlt hgt
          by_cases hkeep : keep head.1 = true <;>
            simp [insert, heq, hkeep, KeyOrder.irrefl]

/-- Pairs may be left out before or after they are collected, if their keys decide. -/
theorem filter_collect (keep : κ → Bool) (pairs : List (κ × β)) :
    (collect pairs).filter (fun entry => keep entry.1) =
      collect (pairs.filter (fun entry => keep entry.1)) := by
  have hfold : ∀ {held : List (κ × β)}, Ascending held →
      (pairs.foldl (fun held pair => insert pair.1 pair.2 held) held).filter
          (fun entry => keep entry.1) =
        (pairs.filter (fun entry => keep entry.1)).foldl
          (fun held pair => insert pair.1 pair.2 held)
          (held.filter (fun entry => keep entry.1)) := by
    induction pairs with
    | nil => exact fun _ => rfl
    | cons pair rest ih =>
        intro held hheld
        rw [List.foldl_cons, ih (ascending_insert pair.1 pair.2 hheld), filter_insert hheld]
        by_cases hkeep : keep pair.1 = true <;> simp [hkeep]
  exact hfold List.Pairwise.nil

section Lookup

variable [DecidableEq κ]

theorem get?_foldl_insert
    {pairs : List (κ × β)} (h : (pairs.map Prod.fst).Nodup) (sought : κ)
    (held : List (κ × β)) :
    get? sought (pairs.foldl (fun held pair => insert pair.1 pair.2 held) held) =
      (get? sought pairs).or (get? sought held) := by
  induction pairs generalizing held with
  | nil => rfl
  | cons pair rest ih =>
      obtain ⟨hnew, hrest⟩ := List.nodup_cons.1 h
      rw [List.foldl_cons, ih hrest, get?_insert]
      by_cases hkey : pair.1 = sought
      · have hnone : get? sought rest = none := by
          refine get?_eq_none_iff.2 (fun entry hmem heq => hnew ?_)
          rw [hkey, ← heq]
          exact List.mem_map_of_mem hmem
        simp [get?, hkey, hnone]
      · simp [get?, hkey]

/-- Pairs with different keys are looked up as before when they have been collected. -/
theorem get?_collect
    {pairs : List (κ × β)} (h : (pairs.map Prod.fst).Nodup) (sought : κ) :
    get? sought (collect pairs) = get? sought pairs := by
  rw [collect, get?_foldl_insert h, get?, Option.or_none]

omit [KeyOrder κ] in
theorem get?_filter
    (keep : κ → Bool) {sought : κ} (h : keep sought = true) (entries : List (κ × β)) :
    get? sought (entries.filter (fun entry => keep entry.1)) = get? sought entries := by
  induction entries with
  | nil => rfl
  | cons head rest ih =>
      by_cases hkey : head.1 = sought
      · simp [get?, hkey, h]
      · by_cases hkeep : keep head.1 = true <;> simp [get?, hkey, hkeep, ih]

end Lookup

end Assoc

namespace Dictionary

variable {κ β : Type} [KeyOrder κ]

theorem entries_insertAll (pairs : List (κ × β)) (d : Dictionary κ β) :
    (d.insertAll pairs).entries =
      pairs.foldl (fun held pair => Assoc.insert pair.1 pair.2 held) d.entries := by
  induction pairs generalizing d with
  | nil => rfl
  | cons pair rest ih => exact ih (d.insert pair.1 pair.2)

/-- Inserting the entries of a dictionary one by one builds it again. -/
theorem ofList_entries (d : Dictionary κ β) : ofList d.entries = d := by
  refine Dictionary.ext ?_
  rw [ofList, entries_insertAll]
  exact Assoc.collect_of_ascending d.ascending

end Dictionary

/-- Pairs with different keys are all kept when they are collected. -/
theorem Assoc.collect_perm
    {κ β : Type} [KeyOrder κ] [DecidableEq κ] {pairs : List (κ × β)}
    (h : (pairs.map Prod.fst).Nodup) : (collect pairs).Perm pairs := by
  have hentries : (Dictionary.empty.insertAll pairs).entries = collect pairs :=
    Dictionary.entries_insertAll pairs Dictionary.empty
  rw [← hentries]
  exact Dictionary.perm_insertAll h

namespace Json

/-! ## Values -/

namespace Value

theorem canonical_ofMembers
    {members : List (String × Value)} (h : CanonicalMembers members) :
    (ofMembers members).Canonical :=
  ⟨Assoc.ascending_collect members, Document.canonicalMembers_foldl_insert members h trivial⟩

theorem canonical_ofRow (row : Row) : (ofRow row).Canonical := by
  refine ⟨(row.mapValues Datum.value).ascending, ?_⟩
  induction row.entries with
  | nil => trivial
  | cons column rest ih => exact ⟨column.2.canonical, ih⟩

theorem canonical_ofData (data : List Datum) : (ofData data).Canonical := by
  rw [ofData, Canonical]
  induction data with
  | nil => trivial
  | cons datum rest ih => exact ⟨datum.canonical, ih⟩

end Value

namespace Document

theorem ofValues_eq_map (values : List Value) : ofValues values = values.map ofValue := by
  induction values with
  | nil => rfl
  | cons value rest ih => simp [ofValues, ih]

mutual

/-- A canonical value is the value of the document that spells it. -/
theorem value?_ofValue :
    ∀ value : Value, value.Canonical → (ofValue value).value? = some value
  | .null, _ | .bool _, _ | .number _, _ | .string _, _ => by simp [ofValue, value?]
  | .array items, h => by
    have hitems := values?_ofValues items (by simpa [Value.Canonical] using h)
    simp [ofValue, value?, hitems]
  | .object members, h => by
    obtain ⟨hascending, hmembers⟩ : Assoc.Ascending members ∧ Value.CanonicalMembers members := by
      simpa [Value.Canonical] using h
    simp [ofValue, value?, members?_ofMembers members hmembers,
      Assoc.collect_of_ascending hascending]

theorem values?_ofValues :
    ∀ values : List Value, Value.CanonicalItems values →
      values? (ofValues values) = some values
  | [], _ => rfl
  | value :: rest, h => by
    simp [ofValues, values?, value?_ofValue value h.1, values?_ofValues rest h.2]

theorem members?_ofMembers :
    ∀ members : List (String × Value), Value.CanonicalMembers members →
      members? (ofMembers members) = some members
  | [], _ => rfl
  | member :: rest, h => by
    simp [ofMembers, members?, value?_ofValue member.2 h.1, members?_ofMembers rest h.2]

end

theorem datum?_eq_some_iff {document : Document} {datum : Datum} :
    document.datum? = some datum ↔ document.value? = some datum.value := by
  unfold datum?
  split
  · next value hvalue => simp [hvalue, Datum.ext_iff]
  · next hnone => simp [hnone]

theorem datum?_ofValue (datum : Datum) : (ofValue datum.value).datum? = some datum :=
  datum?_eq_some_iff.2 (value?_ofValue datum.value datum.canonical)

/-- A datum that may be absent: null is none, and every other datum is read back. -/
theorem nullable?_datum?_ofValue (datum : Datum) :
    (ofValue datum.value).nullable? datum? =
      some (if datum = Datum.null then none else some datum) := by
  have hread := datum?_ofValue datum
  by_cases hnull : datum = Datum.null
  · subst hnull
    rfl
  · have hvalue : datum.value ≠ .null := fun h => hnull (Datum.ext h)
    rw [if_neg hnull]
    unfold nullable?
    split
    · next hdocument =>
      -- Only the null value is spelled by the null document.
      cases hspelled : datum.value <;> simp [hspelled, ofValue] at hdocument hvalue
    · simp [hread]

theorem items?_ofValue
    {α : Type} {read : Document → Option α} {write : α → Value}
    (h : ∀ a, read (ofValue (write a)) = some a) (items : List α) :
    (ofValue (.array (items.map write))).items? read = some items := by
  simp only [ofValue, items?, ofValues_eq_map]
  induction items with
  | nil => rfl
  | cons item rest ih =>
      rw [List.map_cons, List.map_cons, List.mapM_cons, h, ih]
      rfl

theorem data?_ofData (data : List Datum) :
    (ofValue (.ofData data)).items? datum? = some data :=
  items?_ofValue datum?_ofValue data

theorem columns?_ofMembers (columns : List (String × Datum)) :
    columns? (ofMembers (columns.map (fun column => (column.1, column.2.value)))) =
      some columns := by
  induction columns with
  | nil => rfl
  | cons column rest ih => simp [ofMembers, columns?, datum?_ofValue, ih]

theorem row?_ofRow (row : Row) : (ofValue (.ofRow row)).row? = some row := by
  rw [Value.ofRow, ofValue, row?, columns?_ofMembers, Option.map_some, Dictionary.ofList_entries]

/-! ## Fields -/

/-- The fields that spell the members of an object. -/
def spelled (members : List (String × Value)) : Fields :=
  members.map (fun member => (member.1, ofValue member.2))

theorem keyed?_ofMembers (members : List (String × Value)) :
    keyed? (ofMembers members) = some (spelled members) := by
  induction members with
  | nil => rfl
  | cons member rest ih => simp [ofMembers, keyed?, ih, spelled]

theorem ofMembers_eq_map (members : List (String × Value)) :
    ofMembers members = (spelled members).map (fun field => (some field.1, field.2)) := by
  induction members with
  | nil => rfl
  | cons member rest ih => simp [ofMembers, ih, spelled]

theorem filter_spelled (keep : String → Bool) (members : List (String × Value)) :
    (spelled members).filter (fun field => keep field.1) =
      spelled (members.filter (fun member => keep member.1)) := by
  rw [spelled, List.filter_map]
  rfl

theorem distinct_of_nodup {names : List String} (h : names.Nodup) : distinct names = true := by
  induction names with
  | nil => rfl
  | cons name rest ih =>
      obtain ⟨hnew, hrest⟩ := List.nodup_cons.1 h
      simp [distinct, hnew, ih hrest]

/-- An object that is written has its members for fields, as far as they are asked for. -/
theorem exists_fields
    (members : List (String × Value)) (h : (members.map Prod.fst).Nodup) (names : List String) :
    ∃ fields, (ofValue (.ofMembers members)).fields? names = some fields ∧
      ∀ name ∈ names, Assoc.get? name fields = (Assoc.get? name members).map ofValue := by
  have hkeys : ((Assoc.collect members).map Prod.fst).Nodup :=
    (⟨_, Assoc.ascending_collect members⟩ : Dictionary String Value).nodup_keys
  have hspelled : ((spelled (Assoc.collect members)).map Prod.fst).Nodup := by
    simpa [spelled, List.map_map, Function.comp_def] using hkeys
  have hdistinct : distinct (((spelled (Assoc.collect members)).filter
      (fun member => names.contains member.1)).map Prod.fst) = true :=
    distinct_of_nodup (hspelled.sublist (List.filter_sublist.map _))
  refine ⟨(spelled (Assoc.collect members)).filter (fun member => names.contains member.1), ?_, ?_⟩
  · rw [Value.ofMembers, ofValue, fields?, keyed?_ofMembers, Option.bind_some, namedFields?,
      if_pos hdistinct]
  · intro name hname
    rw [Assoc.get?_filter names.contains (by simpa using hname), spelled, Assoc.get?_map,
      Assoc.get?_collect h]

end Document

end Json

end Cascade
