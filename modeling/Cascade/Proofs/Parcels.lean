import Mathlib.Data.List.Induction
import Cascade.Proofs.Entries
import Cascade.Proofs.Squeezing

/-!
# Parcels

A parcel is what reaches the store of a request that was buffered: its
statement in normal form, labelled with the number of the request.  Buffered
statements, buffered records and planned calls all come down to parcels, so
what is buffered can be compared with what is sent.

The second half describes the statements that wait: appending one after the
other is the same as grouping the whole list by text, texts in the order in
which they first came and each text's statements in the order in which they
came.
-/

namespace Cascade

/-- What reaches the store of one buffered request. -/
structure Parcel where
  /-- The request, if the statement belongs to one. -/
  origin : Option RequestId
  statement : Statement
  deriving DecidableEq, Repr

def Statement.normal (statement : Statement) : Statement :=
  ⟨normalText statement.text, statement.params⟩

def Statement.parcel (origin : Option RequestId) (statement : Statement) : Parcel :=
  ⟨origin, statement.normal⟩

namespace StatementGroup

def parcels (group : StatementGroup) : List Parcel :=
  group.waiting.map (fun entry => ⟨entry.origin, ⟨group.text, entry.params⟩⟩)

@[simp] theorem length_parcels (group : StatementGroup) : group.parcels.length = group.size := by
  simp [parcels, size]

theorem text_of_mem_parcels
    {group : StatementGroup} {parcel : Parcel} (h : parcel ∈ group.parcels) :
    parcel.statement.text = group.text := by
  obtain ⟨entry, -, rfl⟩ := List.mem_map.1 h
  rfl

@[simp] theorem parcels_add (entry : Waiting) (group : StatementGroup) :
    (group.add entry).parcels =
      group.parcels ++ [⟨entry.origin, ⟨group.text, entry.params⟩⟩] := by
  simp [parcels, add]

theorem paramSets_eq (group : StatementGroup) :
    group.paramSets.map (fun params => (⟨group.text, params⟩ : Statement)) =
      group.parcels.map Parcel.statement := by
  simp [paramSets, parcels]

end StatementGroup

namespace StatementBatch

def parcels (batch : StatementBatch) : List Parcel :=
  batch.groups.flatMap StatementGroup.parcels

theorem length_parcels (batch : StatementBatch) : batch.parcels.length = batch.size := by
  obtain ⟨groups⟩ := batch
  induction groups with
  | nil => rfl
  | cons group rest ih =>
      simp only [parcels, size, List.flatMap_cons, List.length_append, List.map_cons,
        sumOf, StatementGroup.length_parcels] at ih ⊢
      rw [ih]

theorem parcels_place_perm
    (text : String) (isInsert : Bool) (entry : Waiting) (groups : List StatementGroup) :
    ((place text isInsert entry groups).2.flatMap StatementGroup.parcels).Perm
      (groups.flatMap StatementGroup.parcels ++ [⟨entry.origin, ⟨text, entry.params⟩⟩]) := by
  induction groups with
  | nil => simp [place, StatementGroup.parcels]
  | cons group rest ih =>
      by_cases htext : group.text = text
      · rw [place, if_pos htext]
        simp only [List.flatMap_cons, StatementGroup.parcels_add, List.append_assoc, htext]
        exact List.perm_append_comm.append_left _
      · rw [place, if_neg htext]
        simp only [List.flatMap_cons, List.append_assoc]
        exact ih.append_left _

theorem parcels_append_perm
    (statement : Statement) (origin : Option RequestId) (batch : StatementBatch) :
    (batch.append statement origin).2.parcels.Perm
      (batch.parcels ++ [statement.parcel origin]) :=
  parcels_place_perm _ _ _ _

/-! ## Grouping by text -/

theorem place_of_not_mem
    {text : String} (isInsert : Bool) (entry : Waiting) {groups : List StatementGroup}
    (h : text ∉ groups.map StatementGroup.text) :
    place text isInsert entry groups = (1, groups ++ [⟨text, isInsert, [entry]⟩]) := by
  induction groups with
  | nil => rfl
  | cons group rest ih =>
      simp only [List.map_cons, List.mem_cons, not_or] at h
      have htext : group.text ≠ text := fun heq => h.1 heq.symm
      simp [place, htext, ih h.2]

theorem place_of_mem
    {text : String} (isInsert : Bool) (entry : Waiting) {groups : List StatementGroup}
    (hdistinct : (groups.map StatementGroup.text).Nodup)
    (h : text ∈ groups.map StatementGroup.text) :
    (place text isInsert entry groups).2 =
      groups.map (fun group => if group.text = text then group.add entry else group) := by
  induction groups with
  | nil => simp at h
  | cons group rest ih =>
      simp only [List.map_cons, List.nodup_cons] at hdistinct
      by_cases htext : group.text = text
      · have hrest : ∀ other ∈ rest, other.text ≠ text := by
          intro other hmem heq
          exact hdistinct.1 (List.mem_map.2 ⟨other, hmem, heq.trans htext.symm⟩)
        have hsame : rest.map (fun group => if group.text = text then group.add entry else group)
            = rest := by
          rw [List.map_congr_left (fun other hmem => if_neg (hrest other hmem)), List.map_id']
        simp [place, htext, hsame]
      · have hmem : text ∈ rest.map StatementGroup.text := by
          simpa [Ne.symm htext] using h
        simp [place, htext, ih hdistinct.2 hmem]

/-- One more element leaves the first occurrences as they are, or is a first occurrence itself. -/
theorem eraseDups_concat (texts : List String) (text : String) :
    (texts ++ [text]).eraseDups =
      if text ∈ texts then texts.eraseDups else texts.eraseDups ++ [text] := by
  rw [List.eraseDups_append]
  by_cases h : text ∈ texts
  · simp [List.removeAll, h]
  · simp [List.removeAll, h, List.eraseDups_cons]

theorem nodup_eraseDups (texts : List String) : texts.eraseDups.Nodup := by
  induction texts using List.reverseRecOn with
  | nil => exact List.Pairwise.nil
  | append_singleton texts text ih =>
      rw [eraseDups_concat]
      split
      · exact ih
      · next h =>
        have hnot : text ∉ texts.eraseDups := fun hmem => h (List.mem_eraseDups.1 hmem)
        rw [List.nodup_append]
        refine ⟨ih, List.pairwise_singleton _ _, ?_⟩
        rintro other hother last hlast rfl
        rw [List.mem_singleton.1 hlast] at hother
        exact hnot hother

section Collected

variable (entries : List (Option RequestId × Statement))

/-- The batch that results from appending statements one after the other. -/
def collected : StatementBatch :=
  entries.foldl (fun batch entry => (batch.append entry.2 entry.1).2) .empty

/-- The texts of statements in normal form, in the order in which they first come. -/
def textsOf : List String :=
  (entries.map (fun entry => normalText entry.2.text)).eraseDups

/-- The group of a text among statements: its parameter sets in their own order. -/
def groupOf (text : String) : StatementGroup :=
  ⟨text, isInsertText text, (entries.filter (fun entry => normalText entry.2.text = text)).map
    (fun entry => ⟨entry.2.params, entry.1⟩)⟩

theorem collected_append (entry : Option RequestId × Statement) :
    collected (entries ++ [entry]) = ((collected entries).append entry.2 entry.1).2 := by
  simp [collected]

theorem groupOf_append (entry : Option RequestId × Statement) (text : String) :
    groupOf (entries ++ [entry]) text =
      if normalText entry.2.text = text then (groupOf entries text).add ⟨entry.2.params, entry.1⟩
      else groupOf entries text := by
  split
  · next h => simp [groupOf, StatementGroup.add, h]
  · next h => simp [groupOf, h]

theorem waiting_groupOf {text : String} (h : text ∈ textsOf entries) :
    (groupOf entries text).waiting ≠ [] := by
  obtain ⟨entry, hentry, htext⟩ := List.mem_map.1 (List.mem_eraseDups.1 h)
  rw [groupOf, Ne, List.map_eq_nil_iff]
  exact List.ne_nil_of_mem (List.mem_filter.2 ⟨hentry, decide_eq_true htext⟩)

/-- The groups of a collected batch: one for each text, in the order of first occurrence, with the
parameter sets of that text in their own order. -/
theorem groups_collected : (collected entries).groups = (textsOf entries).map (groupOf entries) := by
  induction entries using List.reverseRecOn with
  | nil => rfl
  | append_singleton entries entry ih =>
      have htexts : (collected entries).groups.map StatementGroup.text = textsOf entries := by
        rw [ih, List.map_map]
        exact List.map_id _
      have hdistinct : ((collected entries).groups.map StatementGroup.text).Nodup := by
        rw [htexts]
        exact nodup_eraseDups _
      have hmem : normalText entry.2.text ∈ (collected entries).groups.map StatementGroup.text ↔
          normalText entry.2.text ∈ entries.map (fun entry => normalText entry.2.text) := by
        rw [htexts]
        exact List.mem_eraseDups
      rw [collected_append, textsOf, List.map_append, List.map_singleton, eraseDups_concat]
      by_cases h : normalText entry.2.text ∈ entries.map (fun entry => normalText entry.2.text)
      · -- The text has a group, which grows in its place.
        rw [if_pos h]
        refine (place_of_mem _ _ hdistinct (hmem.2 h)).trans ?_
        rw [ih, List.map_map]
        apply List.map_congr_left
        intro text _
        rw [groupOf_append]
        simp only [Function.comp_apply, groupOf, eq_comm]
      · -- The text is new: its group is the last one, and no earlier statement is in it.
        rw [if_neg h]
        have hgroups : ((collected entries).append entry.2 entry.1).2.groups =
            (collected entries).groups ++
              [⟨normalText entry.2.text, entry.2.isInsert, [⟨entry.2.params, entry.1⟩]⟩] :=
          congrArg Prod.snd (place_of_not_mem _ _ (fun hin => h (hmem.1 hin)))
        rw [hgroups, List.map_append, ih]
        refine congrArg₂ (· ++ ·) ?_ ?_
        · apply List.map_congr_left
          intro text htext
          have hne : normalText entry.2.text ≠ text := by
            rintro rfl
            exact h (List.mem_eraseDups.1 htext)
          rw [groupOf_append, if_neg hne]
        · have hnone : entries.filter
              (fun other => normalText other.2.text = normalText entry.2.text) = [] := by
            rw [List.filter_eq_nil_iff]
            intro other hother heq
            exact h (List.mem_map.2 ⟨other, hother, of_decide_eq_true heq⟩)
          rw [List.map_singleton, groupOf_append, if_pos rfl]
          simp [groupOf, StatementGroup.add, hnone, Statement.isInsert, isInsertText_normalText]

theorem texts_collected :
    (collected entries).groups.map StatementGroup.text = textsOf entries := by
  rw [groups_collected, List.map_map]
  exact List.map_id _

theorem nodup_texts_collected : ((collected entries).groups.map StatementGroup.text).Nodup := by
  rw [texts_collected]
  exact nodup_eraseDups _

end Collected

/-! ## The statements of requests -/

/-- The batch that results from appending the statements of some requests one after the other. -/
def gathered (requests : List (RequestId × Statement)) : StatementBatch :=
  requests.foldl (fun batch request => (batch.append request.2 (some request.1)).2) .empty

/-- The parcels of one text among the statements of some requests. -/
def parcelsOf (requests : List (RequestId × Statement)) (text : String) : List Parcel :=
  (requests.filter (fun request => normalText request.2.text = text)).map
    (fun request => request.2.parcel (some request.1))

/-- Statements grouped by text: texts in the order of their first occurrence, and the statements
of one text in their own order. -/
def arranged (requests : List (RequestId × Statement)) : List Parcel :=
  (requests.map (fun request => normalText request.2.text)).eraseDups.flatMap
    (parcelsOf requests)

theorem gathered_append
    (requests : List (RequestId × Statement)) (request : RequestId × Statement) :
    gathered (requests ++ [request]) =
      ((gathered requests).append request.2 (some request.1)).2 := by
  simp [gathered]

/-- The statements of requests are collected with the requests as their origins. -/
theorem gathered_eq_collected (requests : List (RequestId × Statement)) :
    gathered requests = collected (requests.map (Prod.map some id)) := by
  rw [gathered, collected, List.foldl_map]
  rfl

def shape (group : StatementGroup) : String × List Parcel :=
  (group.text, group.parcels)

/-- The groups of a gathered batch: one for each text, in the order of first occurrence, with the
parcels of that text in their own order. -/
theorem shape_gathered (requests : List (RequestId × Statement)) :
    (gathered requests).groups.map shape =
      (requests.map (fun request => normalText request.2.text)).eraseDups.map
        (fun text => (text, parcelsOf requests text)) := by
  have hparcels : ∀ text, (groupOf (requests.map (Prod.map some id)) text).parcels =
      parcelsOf requests text := by
    intro text
    rw [groupOf, StatementGroup.parcels, List.map_map, List.filter_map, List.map_map, parcelsOf]
    apply List.map_congr_left
    intro request hmem
    have htext := of_decide_eq_true (List.mem_filter.1 hmem).2
    simp [Statement.parcel, Statement.normal, ← htext]
  rw [gathered_eq_collected, groups_collected, List.map_map, textsOf, List.map_map]
  apply List.map_congr_left
  intro text _
  simp only [Function.comp_apply, shape, hparcels]
  rfl

theorem waiting_gathered (requests : List (RequestId × Statement)) :
    ∀ group ∈ (gathered requests).groups, group.waiting ≠ [] := by
  rw [gathered_eq_collected, groups_collected]
  intro group hmem
  obtain ⟨text, htext, rfl⟩ := List.mem_map.1 hmem
  exact waiting_groupOf _ htext

/-- What a gathered batch holds is the list of its statements, arranged by text. -/
theorem parcels_gathered (requests : List (RequestId × Statement)) :
    (gathered requests).parcels = arranged requests := by
  have h := congrArg (List.flatMap Prod.snd) (shape_gathered requests)
  simp only [List.flatMap_map] at h
  exact h

end StatementBatch

end Cascade
