import Cascade.Buffer.Indexed
import Cascade.Proofs.Calls

/-!
# Statements grouped by slots

A batch with an index does what a batch without one does.  Its groups are the same,
and the index leads from each text to the slot of its group and from no other text
to anything.  Both are what collecting the statements that were appended since the
last flush leads to, so a flush sends a stable partition of them.
-/

namespace Cascade

/-! ## Groups in slots -/

namespace StatementBatch

theorem place_of_getElem?
    {text : String} (isInsert : Bool) (entry : Waiting) {groups : List StatementGroup}
    (hdistinct : (groups.map StatementGroup.text).Nodup) {slot : Nat} {group : StatementGroup}
    (hslot : groups[slot]? = some group) (htext : group.text = text) :
    place text isInsert entry groups =
      ((group.add entry).size, groups.set slot (group.add entry)) := by
  induction groups generalizing slot with
  | nil => cases hslot
  | cons head rest ih =>
      obtain ⟨hhead, hrest⟩ := List.nodup_cons.1 hdistinct
      cases slot with
      | zero =>
          obtain rfl := Option.some.inj hslot
          rw [place, if_pos htext, List.set_cons_zero]
      | succ slot =>
          rw [List.getElem?_cons_succ] at hslot
          have hne : head.text ≠ text := by
            rintro rfl
            exact hhead (htext ▸ List.mem_map_of_mem (List.mem_of_getElem? hslot))
          rw [place, if_neg hne, ih hrest hslot, List.set_cons_succ]

/-- The answer to a placing is the size of the group of the text. -/
theorem exists_placed
    (text : String) (isInsert : Bool) (entry : Waiting) (groups : List StatementGroup) :
    ∃ group ∈ (place text isInsert entry groups).2,
      group.text = text ∧ group.size = (place text isInsert entry groups).1 := by
  induction groups with
  | nil => exact ⟨⟨text, isInsert, [entry]⟩, List.mem_singleton_self _, rfl, rfl⟩
  | cons head rest ih =>
      by_cases htext : head.text = text
      · rw [place, if_pos htext]
        exact ⟨head.add entry, List.mem_cons_self, htext, rfl⟩
      · obtain ⟨group, hmem, hgroup⟩ := ih
        rw [place, if_neg htext]
        exact ⟨group, List.mem_cons_of_mem _ hmem, hgroup⟩

theorem texts_set
    {groups : List StatementGroup} {slot : Nat} {group : StatementGroup}
    (hslot : groups[slot]? = some group) (entry : Waiting) :
    (groups.set slot (group.add entry)).map StatementGroup.text =
      groups.map StatementGroup.text := by
  obtain ⟨hlt, rfl⟩ := List.getElem?_eq_some_iff.1 hslot
  have hbound : slot < (groups.map StatementGroup.text).length := by simpa using hlt
  have hsame : (groups[slot].add entry).text = (groups.map StatementGroup.text)[slot] := by
    rw [List.getElem_map]
    rfl
  rw [List.map_set, hsame, List.set_getElem_self]

end StatementBatch

namespace IndexedGroup

def of (group : StatementGroup) : IndexedGroup :=
  ⟨group.text, group.isInsert, group.paramSets, group.waiting.map Waiting.origin⟩

theorem add_of (entry : Waiting) (group : StatementGroup) :
    (of group).add entry.params entry.origin = of (group.add entry) := by
  simp [of, add, StatementGroup.add, StatementGroup.paramSets]

@[simp] theorem size_of (group : StatementGroup) : (of group).size = group.size := by
  simp [of, size, StatementGroup.paramSets, StatementGroup.size]

@[simp] theorem totals_of (group : StatementGroup) (answer : BatchResult) :
    (of group).totals answer = group.totals answer := by
  rw [totals, StatementGroup.totals, size_of, StatementGroup.keysOf, of, List.zip_map_left,
    List.filterMap_map]
  rfl

end IndexedGroup

theorem executeSlots_of {σ : Type} [Store σ]
    (fetch : Bool) (groups : List StatementGroup) (done : Totals) (store : σ) :
    executeSlots fetch (groups.map IndexedGroup.of) done store =
      executeGroups fetch groups done store := by
  induction groups generalizing done store with
  | nil => rfl
  | cons group rest ih =>
      simp only [List.map_cons, executeSlots, executeGroups, IndexedGroup.totals_of, ih]
      rfl

/-! ## Batches with an index -/

namespace IndexedBatch

/-- A batch with an index holds the groups of a batch without one, each text once, and its index
leads to their slots. -/
structure Represents (batch : IndexedBatch) (plain : StatementBatch) : Prop where
  groups : batch.groups = plain.groups.map IndexedGroup.of
  distinct : (plain.groups.map StatementGroup.text).Nodup
  index : ∀ text slot, batch.index.get? text = some slot ↔
    (plain.groups.map StatementGroup.text)[slot]? = some text

namespace Represents

theorem empty : IndexedBatch.empty.Represents .empty where
  groups := rfl
  distinct := List.Pairwise.nil
  index := by
    intro text slot
    constructor <;> nofun

variable {batch : IndexedBatch} {plain : StatementBatch}

theorem get?_eq_none (h : batch.Represents plain) {text : String}
    (hnot : text ∉ plain.groups.map StatementGroup.text) : batch.index.get? text = none := by
  rw [Option.eq_none_iff_forall_ne_some]
  intro slot hslot
  exact hnot (List.mem_of_getElem? ((h.index text slot).1 hslot))

theorem append_of_mem (h : batch.Represents plain) {statement : Statement}
    (hmem : normalText statement.text ∈ plain.groups.map StatementGroup.text)
    (origin : Option RequestId) :
    ∃ next, batch.append statement origin = some ((plain.append statement origin).1, next) ∧
      next.Represents (plain.append statement origin).2 := by
  obtain ⟨slot, hslot⟩ := List.getElem?_of_mem hmem
  have hindex := (h.index _ _).2 hslot
  rw [List.getElem?_map] at hslot
  obtain ⟨group, hgroup, htext⟩ := Option.map_eq_some_iff.1 hslot
  have hplain : plain.append statement origin =
      ((group.add ⟨statement.params, origin⟩).size,
        ⟨plain.groups.set slot (group.add ⟨statement.params, origin⟩)⟩) := by
    rw [StatementBatch.append, StatementBatch.place_of_getElem? _ _ h.distinct hgroup htext]
  have hslots : batch.groups[slot]? = some (IndexedGroup.of group) := by
    rw [h.groups, List.getElem?_map, hgroup]
    rfl
  have hadd := IndexedGroup.add_of ⟨statement.params, origin⟩ group
  have htexts := StatementBatch.texts_set hgroup ⟨statement.params, origin⟩
  rw [hplain]
  refine ⟨⟨batch.groups.set slot (.of (group.add ⟨statement.params, origin⟩)), batch.index⟩,
    ?_, ?_, ?_, ?_⟩
  · simp [IndexedBatch.append, slotFor, hindex, hslots, hadd]
  · rw [h.groups, List.map_set]
  · rw [htexts]
    exact h.distinct
  · rw [htexts]
    exact h.index

theorem append_of_not_mem (h : batch.Represents plain) {statement : Statement}
    (hnot : normalText statement.text ∉ plain.groups.map StatementGroup.text)
    (origin : Option RequestId) :
    ∃ next, batch.append statement origin = some ((plain.append statement origin).1, next) ∧
      next.Represents (plain.append statement origin).2 := by
  let group : StatementGroup :=
    ⟨normalText statement.text, statement.isInsert, [⟨statement.params, origin⟩]⟩
  have hplain : plain.append statement origin = (1, ⟨plain.groups ++ [group]⟩) := by
    rw [StatementBatch.append, StatementBatch.place_of_not_mem _ _ hnot]
  have hlength : batch.groups.length = (plain.groups.map StatementGroup.text).length := by
    rw [h.groups, List.length_map, List.length_map]
  rw [hplain]
  refine ⟨⟨batch.groups ++ [.of group],
    batch.index.insert (normalText statement.text) batch.groups.length⟩, ?_, ?_, ?_, ?_⟩
  · simp [IndexedBatch.append, slotFor, h.get?_eq_none hnot, IndexedGroup.add, IndexedGroup.of,
      IndexedGroup.size, StatementGroup.paramSets, group]
  · rw [h.groups, List.map_append, List.map_singleton]
  · rw [List.map_append]
    exact (List.perm_append_singleton _ _).nodup_iff.2 (List.nodup_cons.2 ⟨hnot, h.distinct⟩)
  · intro text slot
    rw [Dictionary.get?_insert, List.map_append, List.map_singleton, List.getElem?_append, hlength]
    by_cases hlt : slot < (plain.groups.map StatementGroup.text).length
    · rw [if_pos hlt, ← h.index]
      by_cases htext : normalText statement.text = text
      · subst htext
        rw [if_pos rfl, h.get?_eq_none hnot, Option.some.injEq]
        exact iff_of_false (by omega) (by simp)
      · rw [if_neg htext]
    · rw [if_neg hlt]
      by_cases htext : normalText statement.text = text
      · subst htext
        rw [if_pos rfl, List.getElem?_singleton, Option.some.injEq]
        split
        · exact iff_of_true (by omega) rfl
        · exact iff_of_false (by omega) (by simp)
      · have hbehind : batch.index.get? text ≠ some slot := by
          intro hslot
          exact hlt (List.getElem?_eq_some_iff.1 ((h.index text slot).1 hslot)).1
        rw [if_neg htext, List.getElem?_singleton]
        refine iff_of_false hbehind ?_
        split
        · simpa using htext
        · simp

/-- Appending to the two batches gives the same answer. -/
theorem append (h : batch.Represents plain) (statement : Statement) (origin : Option RequestId) :
    ∃ next, batch.append statement origin = some ((plain.append statement origin).1, next) ∧
      next.Represents (plain.append statement origin).2 := by
  by_cases hmem : normalText statement.text ∈ plain.groups.map StatementGroup.text
  · exact h.append_of_mem hmem origin
  · exact h.append_of_not_mem hmem origin

end Represents

/-! ## Runs of a batch -/

/-- A batch that was new or has been emptied, and to which some statements were appended since. -/
inductive Holds : List (Option RequestId × Statement) → IndexedBatch → Prop
  | new : Holds [] .empty
  | append {entries : List (Option RequestId × Statement)} {batch next : IndexedBatch}
      {statement : Statement} {origin : Option RequestId} {size : Nat} :
      Holds entries batch → batch.append statement origin = some (size, next) →
        Holds (entries ++ [(origin, statement)]) next
  | flush {entries : List (Option RequestId × Statement)} {batch : IndexedBatch}
      {σ : Type} [Store σ] (fetch : Bool) (store : σ) :
      Holds entries batch → Holds [] (batch.flush fetch store).2.1
  | clear {entries : List (Option RequestId × Statement)} {batch : IndexedBatch} :
      Holds entries batch → Holds [] batch.clear

variable {entries : List (Option RequestId × Statement)} {batch : IndexedBatch}

/-- A batch holds what collecting the statements appended since it was empty leads to. -/
theorem Holds.represents (h : Holds entries batch) :
    batch.Represents (StatementBatch.collected entries) := by
  induction h with
  | new => exact .empty
  | @append entries batch next statement origin size _ happend ih =>
      obtain ⟨grown, hgrown, hnext⟩ := ih.append statement origin
      rw [happend] at hgrown
      obtain rfl := congrArg Prod.snd (Option.some.inj hgrown)
      rw [StatementBatch.collected_append]
      exact hnext
  | flush => exact .empty
  | clear => exact .empty

section Partition

variable (entries : List (Option RequestId × Statement))

def setsOf (text : String) : List (List Json.Datum) :=
  (entries.filter (fun entry => normalText entry.2.text = text)).map (fun entry => entry.2.params)

def originsOf (text : String) : List (Option RequestId) :=
  (entries.filter (fun entry => normalText entry.2.text = text)).map Prod.fst

/-- The calls of a stable partition of statements: one for each text, in the order in which the texts
first come. -/
def partition (fetch : Bool) : List Call :=
  (StatementBatch.textsOf entries).map
    (fun text => .batch text (setsOf entries text) (fetch && isInsertText text))

theorem of_groupOf (text : String) :
    IndexedGroup.of (StatementBatch.groupOf entries text) =
      ⟨text, isInsertText text, setsOf entries text, originsOf entries text⟩ := by
  simp [IndexedGroup.of, StatementBatch.groupOf, StatementGroup.paramSets, setsOf, originsOf]

theorem calls_collected (fetch : Bool) :
    (StatementBatch.collected entries).groups.map (StatementGroup.call fetch) =
      partition entries fetch := by
  rw [StatementBatch.groups_collected, List.map_map]
  apply List.map_congr_left
  intro text _
  simp [StatementBatch.groupOf, StatementGroup.call, StatementGroup.paramSets, setsOf]

end Partition

/-- A batch groups statements stably: it keeps one group for each text, and a flush makes the calls
of a stable partition. -/
structure GroupsStably (entries : List (Option RequestId × Statement)) (batch : IndexedBatch) :
    Prop where
  /-- The index leads from a text to the slot of its group, and from no other text to anything. -/
  index : ∀ text slot, batch.index.get? text = some slot ↔
    batch.groups[slot]?.map IndexedGroup.text = some text
  distinct : (batch.groups.map IndexedGroup.text).Nodup
  normal : ∀ group ∈ batch.groups, normalText group.text = group.text
  /-- In every group something waits, and each parameter set has its origin. -/
  inStep : ∀ group ∈ batch.groups,
    group.params ≠ [] ∧ group.origins.length = group.params.length
  isEmpty_iff : batch.isEmpty = true ↔ batch.size = 0
  /-- A group holds the parameter sets of its text, in the order in which they came. -/
  groups : batch.groups = (StatementBatch.textsOf entries).map
    (fun text => ⟨text, isInsertText text, setsOf entries text, originsOf entries text⟩)
  /-- A statement can always be appended, and the answer is the size of the group of its text. -/
  append : ∀ statement origin, ∃ size next, batch.append statement origin = some (size, next) ∧
    ∃ group ∈ next.groups, group.text = normalText statement.text ∧ size = group.params.length
  /-- A flush makes the calls of a stable partition, up to the first that is refused. -/
  flush : ∀ {σ : Type} [Store σ] (fetch : Bool) (store : Watched σ),
    (∃ totals, (batch.flush fetch store).1 = .ok totals ∧
      (batch.flush fetch store).2.2.seen =
        store.seen ++ (partition entries fetch).map (fun call => ⟨call, none⟩)) ∨
    ∃ made failing rest e error, partition entries fetch = made ++ failing :: rest ∧
      (batch.flush fetch store).1 = .error error ∧
      (batch.flush fetch store).2.2.seen =
        store.seen ++ (made.map (fun call => ⟨call, none⟩) ++ [⟨failing, some e⟩])
  flushed : ∀ {σ : Type} [Store σ] (fetch : Bool) (store : σ),
    Store.Obliging store → ∃ totals, (batch.flush fetch store).1 = .ok totals
  /-- Nothing is left after a flush, whether or not it failed, nor after the batch was cleared. -/
  emptied : ∀ {σ : Type} [Store σ] (fetch : Bool) (store : σ),
    (batch.flush fetch store).2.1 = .empty ∧ batch.clear = .empty
  /-- A batch without an index gives the same answers to statements and to flushes. -/
  plain : ∀ {σ : Type} [Store σ] (statement : Statement) (origin : Option RequestId) (fetch : Bool)
      (store : σ),
    (batch.append statement origin).map Prod.fst =
        some ((StatementBatch.collected entries).append statement origin).1 ∧
      (batch.flush fetch store).1 = ((StatementBatch.collected entries).flush fetch store).1 ∧
      (batch.flush fetch store).2.2 = ((StatementBatch.collected entries).flush fetch store).2.2

/-- A batch that holds some statements has the groups that collecting them leads to. -/
theorem Holds.groups (h : Holds entries batch) :
    batch.groups = (StatementBatch.textsOf entries).map
      (fun text => ⟨text, isInsertText text, setsOf entries text, originsOf entries text⟩) := by
  rw [h.represents.groups, StatementBatch.groups_collected, List.map_map]
  apply List.map_congr_left
  intro text _
  exact of_groupOf entries text

theorem Holds.params_ne_nil (h : Holds entries batch) :
    ∀ group ∈ batch.groups, group.params ≠ [] := by
  intro group hmem
  rw [h.groups] at hmem
  obtain ⟨text, htext, rfl⟩ := List.mem_map.1 hmem
  have hwaiting := StatementBatch.waiting_groupOf entries htext
  rw [StatementBatch.groupOf, Ne, List.map_eq_nil_iff] at hwaiting
  rwa [setsOf, Ne, List.map_eq_nil_iff]

theorem Holds.isEmpty_iff (h : Holds entries batch) : batch.isEmpty = true ↔ batch.size = 0 := by
  have hwaiting := h.params_ne_nil
  obtain ⟨groups, index⟩ := batch
  cases groups with
  | nil => exact iff_of_true rfl rfl
  | cons group rest =>
      have hlength := List.length_pos_iff.2 (hwaiting group List.mem_cons_self)
      refine iff_of_false nofun ?_
      simp only [size, List.map_cons, sumOf, IndexedGroup.size]
      omega

theorem flush_eq (h : Holds entries batch) {σ : Type} [Store σ] (fetch : Bool) (store : σ) :
    batch.flush fetch store =
      ((executeGroups fetch (StatementBatch.collected entries).groups {} store).1, .empty,
        (executeGroups fetch (StatementBatch.collected entries).groups {} store).2) := by
  rw [flush, h.represents.groups, executeSlots_of]

/-- A batch with slots groups statements stably, however it was filled and emptied before. -/
theorem groups_stably (h : Holds entries batch) : GroupsStably entries batch where
  index := by
    have hindex := h.represents.index
    intro text slot
    rw [hindex, h.represents.groups, ← List.getElem?_map, List.map_map]
    rfl
  distinct := by
    rw [h.represents.groups, List.map_map]
    exact h.represents.distinct
  normal := by
    intro group hmem
    rw [h.groups] at hmem
    obtain ⟨text, htext, rfl⟩ := List.mem_map.1 hmem
    obtain ⟨entry, -, rfl⟩ := List.mem_map.1 (List.mem_eraseDups.1 htext)
    exact normalText_normalText _
  inStep := by
    intro group hmem
    refine ⟨h.params_ne_nil group hmem, ?_⟩
    rw [h.groups] at hmem
    obtain ⟨text, -, rfl⟩ := List.mem_map.1 hmem
    simp [originsOf, setsOf]
  isEmpty_iff := h.isEmpty_iff
  groups := h.groups
  append := by
    intro statement origin
    obtain ⟨next, happend, hnext⟩ := h.represents.append statement origin
    obtain ⟨group, hmem, htext, hsize⟩ := StatementBatch.exists_placed
      (normalText statement.text) statement.isInsert ⟨statement.params, origin⟩
      (StatementBatch.collected entries).groups
    refine ⟨_, next, happend, IndexedGroup.of group, ?_, htext, ?_⟩
    · rw [hnext.groups]
      exact List.mem_map_of_mem hmem
    · exact hsize.symm.trans (IndexedGroup.size_of group).symm
  flush := by
    intro σ _ fetch store
    rw [flush_eq h, executeGroups_seen, ← calls_collected]
    rcases executeGroups_cases fetch (StatementBatch.collected entries).groups {} store with
      ⟨totals, hresult, hattempted, -⟩ | ⟨sent, refused, rest, e, hgroups, hattempted, hresult⟩
    · refine Or.inl ⟨totals, hresult, ?_⟩
      rw [hattempted, List.map_map, List.map_map]
      rfl
    · refine Or.inr ⟨sent.map (StatementGroup.call fetch), refused.call fetch,
        rest.map (StatementGroup.call fetch), e, _, ?_, hresult, ?_⟩
      · rw [hgroups, List.map_append, List.map_cons]
      · rw [hattempted, List.map_append, List.map_map, List.map_map]
        rfl
  flushed := by
    intro σ _ fetch store hstore
    rw [flush_eq h]
    exact executeGroups_of_obliging fetch _ {} hstore
  emptied := by
    intro σ _ fetch store
    exact ⟨rfl, rfl⟩
  plain := by
    intro σ _ statement origin fetch store
    obtain ⟨next, happend, -⟩ := h.represents.append statement origin
    refine ⟨by rw [happend]; rfl, ?_, ?_⟩
    · rw [flush_eq h]
      rfl
    · rw [flush_eq h]
      rfl

theorem exists_holds (entries : List (Option RequestId × Statement)) :
    ∃ batch, Holds entries batch := by
  induction entries using List.reverseRecOn with
  | nil => exact ⟨.empty, .new⟩
  | append_singleton entries entry ih =>
      obtain ⟨batch, hbatch⟩ := ih
      obtain ⟨next, happend, -⟩ := hbatch.represents.append entry.2 entry.1
      exact ⟨next, hbatch.append happend⟩

/-- Two selections that differ in blanks only, with an insert between them. -/
def interrupted : List (Option RequestId × Statement) :=
  [(none, ⟨"select  1", []⟩), (some ⟨1⟩, ⟨"insert into a values (?)", [.null]⟩),
    (some ⟨2⟩, ⟨"select 1 ", []⟩)]

theorem groups_stably_of_interrupted :
    ∃ batch, Holds interrupted batch ∧ GroupsStably interrupted batch ∧
      batch.groups = [⟨"select 1", false, [[], []], [none, some ⟨2⟩]⟩,
        ⟨"insert into a values (?)", true, [[.null]], [some ⟨1⟩]⟩] ∧
      partition interrupted true = [.batch "select 1" [[], []] false,
        .batch "insert into a values (?)" [[.null]] true] := by
  obtain ⟨batch, hbatch⟩ := exists_holds interrupted
  refine ⟨batch, hbatch, groups_stably hbatch, ?_, by decide⟩
  rw [hbatch.groups]
  decide

end IndexedBatch

end Cascade
