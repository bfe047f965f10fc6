import Cascade.Proofs.Ledger

/-!
# The line

The requests that wait in a coordinator stand in a line, in the order in which
a flush sends them.  The record writes of one root type keep one lane of it, and
so do the statements of one normal text.  A request that is buffered steps into
the line, and nobody behind it is in its lane.  A flush or a clear takes
everybody out of the line; nothing else moves in it.
-/

namespace Cascade

/-- A lane of the line. -/
inductive Lane where
  | root (root : RootType)
  | text (text : String)
  deriving DecidableEq

def Request.lane : Request → Lane
  | .record r => .root r.root
  | .statement s => .text (normalText s.text)

/-- A place in the line: the parcel of a request in the lane of the request. -/
structure Slot where
  lane : Lane
  parcel : Parcel

namespace Slot

/-- A slot steps into a line, in front of slots of other lanes only. -/
def Enters (slot : Slot) (line next : List Slot) : Prop :=
  ∃ front back, line = front ++ back ∧ next = front ++ slot :: back ∧
    ∀ other ∈ back, other.lane ≠ slot.lane

namespace Enters

variable {slot : Slot} {line next others : List Slot}

theorem concat (slot : Slot) (line : List Slot) : slot.Enters line (line ++ [slot]) :=
  ⟨line, [], (List.append_nil line).symm, rfl, List.forall_mem_nil _⟩

theorem append_left (h : slot.Enters line next) (others : List Slot) :
    slot.Enters (others ++ line) (others ++ next) := by
  obtain ⟨front, back, rfl, rfl, hback⟩ := h
  refine ⟨others ++ front, back, ?_, ?_, hback⟩
  · exact (List.append_assoc _ _ _).symm
  · exact (List.append_assoc _ _ _).symm

theorem append_right (h : slot.Enters line next)
    (hothers : ∀ other ∈ others, other.lane ≠ slot.lane) :
    slot.Enters (line ++ others) (next ++ others) := by
  obtain ⟨front, back, rfl, rfl, hback⟩ := h
  refine ⟨front, back ++ others, by simp, by simp, ?_⟩
  intro other hmem
  rcases List.mem_append.1 hmem with hmem | hmem
  · exact hback other hmem
  · exact hothers other hmem

end Enters

end Slot

/-! ## The line of a coordinator -/

def StatementGroup.slots (group : StatementGroup) : List Slot :=
  group.parcels.map (Slot.mk (.text group.text))

def RecordGroup.slots (registry : Registry) (group : RecordGroup) : List Slot :=
  (group.parcels registry).map (Slot.mk (.root group.root))

/-- The slots of the requests that wait, in the order in which a flush sends them. -/
def Coordinator.line (registry : Registry) (c : Coordinator) : List Slot :=
  c.statements.groups.flatMap StatementGroup.slots ++
    c.window.ordered.flatMap (RecordGroup.slots registry)

theorem StatementGroup.lane_of_mem_slots
    {group : StatementGroup} {slot : Slot} (h : slot ∈ group.slots) :
    slot.lane = .text group.text := by
  obtain ⟨parcel, -, rfl⟩ := List.mem_map.1 h
  rfl

theorem RecordGroup.lane_of_mem_slots
    {registry : Registry} {group : RecordGroup} {slot : Slot} (h : slot ∈ group.slots registry) :
    slot.lane = .root group.root := by
  obtain ⟨parcel, -, rfl⟩ := List.mem_map.1 h
  rfl

/-- The line holds the parcels in the order in which a flush sends them. -/
theorem Coordinator.map_parcel_line (registry : Registry) (c : Coordinator) :
    (c.line registry).map Slot.parcel = c.parcels registry := by
  have hstatements : ∀ group : StatementGroup, group.slots.map Slot.parcel = group.parcels := by
    intro group
    simp [StatementGroup.slots, Function.comp_def]
  have hrecords : ∀ group : RecordGroup,
      (group.slots registry).map Slot.parcel = group.parcels registry := by
    intro group
    simp [RecordGroup.slots, Function.comp_def]
  simp [line, parcels, StatementBatch.parcels, List.map_flatMap, hstatements, hrecords]

theorem Coordinator.line_eq_nil_iff {registry : Registry} {c : Coordinator} :
    c.line registry = [] ↔ c.parcels registry = [] := by
  rw [← map_parcel_line, List.map_eq_nil_iff]

/-! ## Statements -/

namespace StatementBatch

/-- A statement steps into the line at the end of the group of its text. -/
theorem enters_place
    {text : String} (isInsert : Bool) (entry : Waiting) {groups : List StatementGroup}
    (hdistinct : (groups.map StatementGroup.text).Nodup) :
    Slot.Enters ⟨.text text, ⟨entry.origin, ⟨text, entry.params⟩⟩⟩
      (groups.flatMap StatementGroup.slots)
      ((place text isInsert entry groups).2.flatMap StatementGroup.slots) := by
  induction groups with
  | nil => exact .concat _ []
  | cons group rest ih =>
      obtain ⟨hgroup, hrest⟩ := List.nodup_cons.1 hdistinct
      by_cases htext : group.text = text
      · subst htext
        have hadd : (group.add entry).slots =
            group.slots ++ [⟨.text group.text, ⟨entry.origin, ⟨group.text, entry.params⟩⟩⟩] := by
          simp only [StatementGroup.slots, StatementGroup.parcels_add, List.map_append]
          rfl
        rw [place, if_pos rfl, List.flatMap_cons, List.flatMap_cons, hadd]
        refine (Slot.Enters.concat _ _).append_right ?_
        intro other hother
        obtain ⟨held, hheld, hslot⟩ := List.mem_flatMap.1 hother
        rw [StatementGroup.lane_of_mem_slots hslot]
        intro heq
        exact hgroup (Lane.text.inj heq ▸ List.mem_map_of_mem hheld)
      · rw [place, if_neg htext, List.flatMap_cons]
        exact (ih hrest).append_left group.slots

theorem nodup_texts_gathered (requests : List (RequestId × Statement)) :
    ((gathered requests).groups.map StatementGroup.text).Nodup := by
  rw [gathered_eq_collected]
  exact nodup_texts_collected _

end StatementBatch

/-! ## Record writes -/

section Sorting

variable {α : Type} {precedes : α → α → Bool}

theorem insertBy_map (f : α → α) (h : ∀ a b, precedes (f a) (f b) = precedes a b) (entry : α)
    (entries : List α) :
    insertBy precedes (f entry) (entries.map f) = (insertBy precedes entry entries).map f := by
  induction entries with
  | nil => rfl
  | cons head rest ih =>
      simp only [List.map_cons, insertBy, h]
      split
      · rw [ih, List.map_cons]
      · rfl

theorem sortBy_map (f : α → α) (h : ∀ a b, precedes (f a) (f b) = precedes a b)
    (entries : List α) : sortBy precedes (entries.map f) = (sortBy precedes entries).map f := by
  induction entries with
  | nil => rfl
  | cons head rest ih => rw [List.map_cons, sortBy, ih, insertBy_map f h, sortBy]

theorem exists_insertBy (precedes : α → α → Bool) (entry : α) (entries : List α) :
    ∃ front back, entries = front ++ back ∧
      insertBy precedes entry entries = front ++ entry :: back := by
  induction entries with
  | nil => exact ⟨[], [], rfl, rfl⟩
  | cons head rest ih =>
      simp only [insertBy]
      split
      · obtain ⟨front, back, hentries, hinsert⟩ := ih
        exact ⟨head :: front, back, by simp [hentries], by simp [hinsert]⟩
      · exact ⟨[], head :: rest, rfl, rfl⟩

end Sorting

namespace RecordGroup

/-- Where no other group has the root type of the given one, a change of the groups of this root
type changes this group. -/
theorem map_of_nodup
    {front back : List RecordGroup} {group : RecordGroup}
    (hnodup : ((front ++ group :: back).map RecordGroup.root).Nodup)
    (change : RecordGroup → RecordGroup) :
    (front ++ group :: back).map (fun g => if g.root = group.root then change g else g) =
      front ++ change group :: back := by
  rw [List.map_append, List.map_cons, List.nodup_append] at hnodup
  obtain ⟨-, hback, hfront⟩ := hnodup
  have hrest : ∀ others : List RecordGroup, (∀ g ∈ others, g.root ≠ group.root) →
      others.map (fun g => if g.root = group.root then change g else g) = others := by
    intro others hother
    rw [List.map_congr_left (fun g hmem => if_neg (hother g hmem)), List.map_id']
  rw [List.map_append, List.map_cons, if_pos rfl, hrest front, hrest back]
  · intro g hmem heq
    exact (List.nodup_cons.1 hback).1 (heq ▸ List.mem_map_of_mem hmem)
  · intro g hmem heq
    exact hfront _ (List.mem_map_of_mem hmem) _ List.mem_cons_self heq

/-- The slots of groups of other root types are in other lanes. -/
theorem lane_ne_of_mem_slots
    {registry : Registry} {groups : List RecordGroup} {root : RootType}
    (hroots : ∀ group ∈ groups, group.root ≠ root) {slot : Slot}
    (h : slot ∈ groups.flatMap (RecordGroup.slots registry)) : slot.lane ≠ .root root := by
  obtain ⟨group, hgroup, hslot⟩ := List.mem_flatMap.1 h
  rw [lane_of_mem_slots hslot]
  exact fun heq => hroots group hgroup (Lane.root.inj heq)

theorem slots_append
    {registry : Registry} {id : RequestId} {record : Record} {parcel : Parcel}
    (hparcel : registry.parcel? (id, record) = some parcel) (group : RecordGroup) :
    (group.append id record).slots registry =
      group.slots registry ++ [⟨.root group.root, parcel⟩] := by
  simp [slots, parcels, append, hparcel]

end RecordGroup

namespace Coordinator

variable {registry : Registry} {n : Nat} {c : Coordinator}

namespace WellFormed

theorem nodup_texts (h : c.WellFormed registry n) :
    (c.statements.groups.map StatementGroup.text).Nodup := by
  obtain ⟨requests, hrequests, -⟩ := h.statements
  rw [hrequests]
  exact StatementBatch.nodup_texts_gathered requests

theorem nodup_roots (h : c.WellFormed registry n) :
    (c.window.values.map RecordGroup.root).Nodup := by
  have hroots : c.window.values.map RecordGroup.root = c.window.entries.map Prod.fst := by
    rw [Dictionary.values, List.map_map]
    exact List.map_congr_left (fun entry hmem => (h.sound entry hmem).own)
  rw [hroots]
  exact c.window.nodup_keys

theorem nodup_roots_ordered (h : c.WellFormed registry n) :
    (c.window.ordered.map RecordGroup.root).Nodup :=
  ((sortBy_perm _ _).map RecordGroup.root).nodup_iff.2 h.nodup_roots

/-- A write of a root type that has a group steps into the line at the end of this group. -/
theorem enters_member
    (h : c.WellFormed registry n) {record : Record} {group : RecordGroup}
    (hget : c.window.get? record.root = some group) {parcel : Parcel}
    (hparcel : registry.parcel? (c.latest, record) = some parcel) :
    Slot.Enters ⟨.root record.root, parcel⟩ (c.line registry)
      ((c.withRecord record group).line registry) := by
  have hown : group.root = record.root := (h.sound _ (Assoc.mem_of_get?_eq_some hget)).own
  let change : RecordGroup → RecordGroup := fun g =>
    if g.root = group.root then g.append c.latest record else g
  have hvalues : (c.withRecord record group).window.values = c.window.values.map change := by
    obtain ⟨front, back, hvalues, hinsert⟩ := Dictionary.values_insert_of_get?_eq_some hget
    have hnodup := h.nodup_roots
    rw [hvalues] at hnodup ⊢
    exact (hinsert _).trans (RecordGroup.map_of_nodup hnodup _).symm
  have hordered : (c.withRecord record group).window.ordered = c.window.ordered.map change := by
    rw [Window.ordered, hvalues]
    apply sortBy_map
    intro a b
    simp only [change]
    split <;> split <;> rfl
  obtain ⟨front, back, hsplit⟩ := List.append_of_mem
    (mem_ordered_iff.2 (Dictionary.mem_values_of_get?_eq_some hget))
  have hnodup := h.nodup_roots_ordered
  rw [hsplit] at hnodup
  have hback : ∀ other ∈ back, other.root ≠ record.root := by
    intro other hmem heq
    rw [List.map_append, List.map_cons, List.nodup_append] at hnodup
    exact (List.nodup_cons.1 hnodup.2.1).1 (hown ▸ heq ▸ List.mem_map_of_mem hmem)
  rw [line, line, hordered, hsplit, RecordGroup.map_of_nodup hnodup]
  refine Slot.Enters.append_left ?_ _
  simp only [List.flatMap_append, List.flatMap_cons, RecordGroup.slots_append hparcel, hown]
  refine Slot.Enters.append_left ?_ _
  exact (Slot.Enters.concat _ _).append_right
    (fun other hmem => RecordGroup.lane_ne_of_mem_slots hback hmem)

/-- A write that opens a group steps into the line where the new group belongs. -/
theorem enters_entrant
    (h : c.WellFormed registry n) (hlt : n < c.requests) {record : Record}
    (hknown : registry.contains record.root) (hget : c.window.get? record.root = none)
    (depth : Int) {parcel : Parcel} (hparcel : registry.parcel? (c.latest, record) = some parcel) :
    Slot.Enters ⟨.root record.root, parcel⟩ (c.line registry)
      (((c.withOpened depth).withRecord record
        (.new record.root depth c.opened)).line registry) := by
  let opened : RecordGroup := (RecordGroup.new record.root depth c.opened).append c.latest record
  have hvalues := Dictionary.values_insert_perm_of_get?_eq_none hget opened
  have hordered : ((c.withOpened depth).withRecord record
      (.new record.root depth c.opened)).window.ordered =
        insertBy RecordGroup.precedes opened c.window.ordered :=
    ((h.withRecord_entrant hlt hknown hget depth).sortBy_eq_ordered hvalues.symm).symm
  obtain ⟨front, back, hsplit, hinsert⟩ :=
    exists_insertBy RecordGroup.precedes opened c.window.ordered
  have hroots : ∀ group ∈ c.window.ordered, group.root ≠ record.root := by
    intro group hmem
    obtain ⟨entry, hentry, rfl⟩ := List.mem_map.1 (mem_ordered_iff.1 hmem)
    rw [(h.sound entry hentry).own]
    exact Assoc.get?_eq_none_iff.1 hget entry hentry
  have hslots : opened.slots registry = [⟨.root record.root, parcel⟩] :=
    RecordGroup.slots_append hparcel _
  rw [line, line, hordered, hinsert, hsplit]
  refine Slot.Enters.append_left ?_ _
  simp only [List.flatMap_append, List.flatMap_cons, hslots]
  refine Slot.Enters.append_left ?_ _
  refine ⟨[], _, rfl, rfl, ?_⟩
  intro other hmem
  refine RecordGroup.lane_ne_of_mem_slots (fun group hgroup => hroots group ?_) hmem
  rw [hsplit]
  exact List.mem_append_right _ hgroup

/-- A statement steps into the line at the end of the group of its text, or of all statements. -/
theorem enters_statement (h : c.WellFormed registry n) (statement : Statement) :
    Slot.Enters ⟨.text (normalText statement.text), statement.parcel (some c.latest)⟩
      (c.line registry) ((c.withStatement statement).line registry) := by
  refine Slot.Enters.append_right (StatementBatch.enters_place _ _ h.nodup_texts) ?_
  intro other hmem
  obtain ⟨group, -, hslot⟩ := List.mem_flatMap.1 hmem
  rw [RecordGroup.lane_of_mem_slots hslot]
  exact nofun

end WellFormed

/-! ## Moves and the line -/

/-- What a stage does to the line. -/
def Stage.Shifts (registry : Registry) {σ : Type} (stage : Stage σ) (line next : List Slot) :
    Prop :=
  match stage with
  | .queue id request => ∃ parcel, request.parcel? registry id = some parcel ∧
      Slot.Enters ⟨request.lane, parcel⟩ line next
  | .flush _ _ _ | .clear _ => next = []
  | _ => next = line

/-- A buffered request steps into the line, a flush or a clear ends it, and nothing else changes
it. -/
theorem Move.shifts {σ : Type} [Store σ] {ctx : Context} {stage : Stage σ} {m next : Moment σ}
    (hmove : Move ctx stage m next) (h : m.WellFormed ctx.registry) :
    stage.Shifts ctx.registry (m.coordinator.line ctx.registry)
      (next.coordinator.line ctx.registry) := by
  obtain ⟨n, hn, hwell⟩ := h
  cases hmove with
  | flush given reset c b => exact line_eq_nil_iff.2 (parcels_flushWith ctx.registry ctx reset c b)
  | statement s c b => exact ⟨_, rfl, hwell.enters_statement s⟩
  | member record group c b hknown hget =>
      have hroot : ctx.registry.contains (c.latest, record).2.root := hknown
      obtain ⟨statement, -, hparcel⟩ := Registry.bind_of_contains hroot
      exact ⟨_, hparcel, hwell.enters_member hget hparcel⟩
  | entrant record depth c b hknown hget _ =>
      have hroot : ctx.registry.contains (c.latest, record).2.root := hknown
      obtain ⟨statement, -, hparcel⟩ := Registry.bind_of_contains hroot
      exact ⟨_, hparcel, hwell.enters_entrant (hn.lt rfl) hknown hget depth hparcel⟩
  | clear given c b =>
      exact line_eq_nil_iff.2 (parcels_eq_nil ctx.registry rfl (by intro group hmem; cases hmem))
  | number | force | execute | adjust => rfl

end Coordinator

end Cascade
