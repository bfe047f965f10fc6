import Cascade.Proofs.Ordering
import Cascade.Proofs.Calls
import Cascade.Store.Memory

/-!
# How long a group keeps its place

A group keeps its depth and its age from the write that opens it until all
groups are forgotten: by a flush that resets them, by one that fails or by a
clear.  Whatever comes in between, also operations on other backings, changes
what waits in a group and nothing else of it.
-/

namespace Cascade

namespace Window

@[simp] theorem get?_drained (window : Window) (root : RootType) :
    window.drained.get? root = (window.get? root).map RecordGroup.drained :=
  Assoc.get?_map _ _ _

@[simp] theorem isEmpty_drained (window : Window) :
    window.drained.isEmpty = window.isEmpty := by
  simp [drained, Dictionary.mapValues, Dictionary.isEmpty]

theorem isEmpty_of_get?_eq_some
    {window : Window} {root : RootType} {group : RecordGroup}
    (h : window.get? root = some group) : window.isEmpty = false := by
  rw [Dictionary.isEmpty, List.isEmpty_eq_false_iff_exists_mem]
  exact ⟨_, Assoc.mem_of_get?_eq_some h⟩

end Window

/-- To drain the groups does not change where a new group belongs. -/
theorem placement_drained
    (relative : Int) (imported : List RootType) (window : Window) (deepest : Int) :
    placement relative imported window.drained deepest =
      placement relative imported window deepest := by
  have hparent : imported.findSome? (fun target => window.drained.get? target) =
      (imported.findSome? (fun target => window.get? target)).map RecordGroup.drained := by
    simp only [Window.get?_drained, List.map_findSome?]
    rfl
  unfold placement
  rw [Window.isEmpty_drained, hparent]
  rcases imported.findSome? (fun target => window.get? target) with _ | parent <;> rfl

/-- Two states of a group at the same place: at one depth and of one age. -/
structure RecordGroup.SamePlace (a b : RecordGroup) : Prop where
  depth : a.depth = b.depth
  sequence : a.sequence = b.sequence

namespace RecordGroup.SamePlace

variable {a b c : RecordGroup}

theorem refl (a : RecordGroup) : a.SamePlace a :=
  ⟨rfl, rfl⟩

theorem trans (hab : a.SamePlace b) (hbc : b.SamePlace c) : a.SamePlace c :=
  ⟨hab.depth.trans hbc.depth, hab.sequence.trans hbc.sequence⟩

end RecordGroup.SamePlace

namespace Coordinator

variable {σ : Type}

/-! ## Stages that forget the groups -/

/-- Whether all groups are forgotten in a stage: by a flush that resets them or fails, or by a
clear. -/
def Stage.forgets [Store σ] (ctx : Context) : Stage σ → Bool
  | .flush reset c b =>
      match (c.flushWith ctx reset b).1 with
      | .ok _ => reset
      | .error _ => true
  | .clear _ => true
  | _ => false

/-- After a flush the groups are forgotten, or they are drained. -/
theorem window_flushWith [Store σ] (ctx : Context) (reset : Bool) (c : Coordinator)
    (b : Backing σ) :
    (c.flushWith ctx reset b).2.1.window =
      if (Stage.flush reset c b).forgets ctx then ∅ else c.window.drained := by
  rw [coordinator_flushWith]
  rcases hresult : (c.flushWith ctx reset b).1 with e | totals
  · simp [Stage.forgets, hresult, wiped]
  · simp [Stage.forgets, hresult, settled]

/-- A root type without a group has none after a flush that keeps the groups either, and it belongs
where it belonged before. -/
theorem settled_entrant
    {c : Coordinator} {root : RootType} {relative : Int} {imported : List RootType}
    {found : Placement} (hnone : c.window.get? root = none)
    (hplace : placement relative imported c.window c.maxDepth = found) (totals : Totals) :
    (c.settled false totals).window.get? root = none ∧
      placement relative imported (c.settled false totals).window
        (c.settled false totals).maxDepth = found := by
  constructor
  · simpa [settled] using hnone
  · simpa [settled, placement_drained] using hplace

section Moves

variable [Store σ] {ctx : Context} {stage : Stage σ} {m next : Moment σ}

theorem Move.window_of_forgets
    (hmove : Move ctx stage m next) (h : stage.forgets ctx = true) :
    next.coordinator.window = ∅ := by
  cases hmove with
  | flush given reset c b => rw [window_flushWith, if_pos h]
  | clear given c b => rfl
  | number | statement | member | entrant | force | execute | adjust => cases h

/-- A move in which the groups are not forgotten leaves every group at its place. -/
theorem Move.samePlace
    (hmove : Move ctx stage m next) (h : stage.forgets ctx = false) {root : RootType}
    {group : RecordGroup} (hget : m.coordinator.window.get? root = some group) :
    ∃ held, next.coordinator.window.get? root = some held ∧ held.SamePlace group := by
  cases hmove with
  | flush given reset c b =>
      simp only at hget
      refine ⟨group.drained, ?_, ⟨rfl, rfl⟩⟩
      rw [window_flushWith, h]
      simp [hget]
  | member record found c b _ hfound =>
      have hinsert := get?_withRecord record found c root
      by_cases hroot : record.root = root
      · subst hroot
        rw [if_pos rfl] at hinsert
        have hsame : found = group := Option.some.inj (hfound.symm.trans hget)
        exact ⟨_, hinsert, by rw [hsame]; exact ⟨rfl, rfl⟩⟩
      · rw [if_neg hroot] at hinsert
        exact ⟨group, hinsert.trans hget, .refl group⟩
  | entrant record depth c b _ hnone _ =>
      have hroot : record.root ≠ root := by
        rintro rfl
        simp only [hnone] at hget
        cases hget
      have hinsert := get?_withRecord record (.new record.root depth c.opened)
        (c.withOpened depth) root
      rw [if_neg hroot] at hinsert
      exact ⟨group, hinsert.trans hget, .refl group⟩
  | clear given c b => cases h
  | number | statement | force | execute | adjust => exact ⟨group, hget, .refl group⟩

end Moves

/-! ## Courses of operations -/

/-- The stages of operations that are performed one after the other.  Between two operations the
backing may change in any way. -/
inductive Course [Store σ] (ctx : Context) : List (Stage σ) → Coordinator → Coordinator → Prop
  | nil (c : Coordinator) : Course ctx [] c c
  | cons {history : List (Stage σ)} {c last : Coordinator} (operation : Operation)
      (b : Backing σ) : Course ctx history (perform ctx operation c b).2.1 last →
        Course ctx (stages ctx operation c b ++ history) c last

/-- The moves of a list of stages, one after the other.  In front of every move the backing may
change in any way. -/
inductive Trail [Store σ] (ctx : Context) : List (Stage σ) → Moment σ → Moment σ → Prop
  | nil (m : Moment σ) : Trail ctx [] m m
  | cons {stage : Stage σ} {stages : List (Stage σ)} {m next last : Moment σ} :
      Move ctx stage m next → Trail ctx stages next last → Trail ctx (stage :: stages) m last
  | change {stages : List (Stage σ)} {given : Bool} {c : Coordinator} {b : Backing σ}
      {last : Moment σ} (other : Backing σ) :
      Trail ctx stages ⟨given, c, other⟩ last → Trail ctx stages ⟨given, c, b⟩ last

namespace Trail

variable [Store σ] {ctx : Context} {stage : Stage σ} {stages others : List (Stage σ)}
  {m next last : Moment σ}

theorem append (h : Trail ctx stages m next) (h' : Trail ctx others next last) :
    Trail ctx (stages ++ others) m last := by
  induction h with
  | nil => exact h'
  | cons hmove _ ih => exact .cons hmove (ih h')
  | change other _ ih => exact .change other (ih h')

theorem of_path (h : Path ctx stages m last) : Trail ctx stages m last := by
  induction h with
  | nil m => exact .nil m
  | cons hmove _ ih => exact .cons hmove ih

/-- The first stage of a trail is a move from its beginning, but for the backing. -/
theorem uncons (h : Trail ctx (stage :: stages) m last) :
    ∃ b next, Move ctx stage ⟨m.given, m.coordinator, b⟩ next ∧ Trail ctx stages next last := by
  generalize hlist : stage :: stages = list at h
  induction h with
  | nil => cases hlist
  | cons hmove hrest _ =>
      cases hlist
      exact ⟨_, _, hmove, hrest⟩
  | change other _ ih => exact ih hlist

/-- Where a flush stands in a trail, the stages before it lead to its coordinator. -/
theorem to_flush
    {reset : Bool} {d : Coordinator} {begun : Backing σ}
    (h : Trail ctx (stages ++ .flush reset d begun :: others) m last) :
    ∃ mid, Trail ctx stages m mid ∧ mid.coordinator = d := by
  induction stages generalizing m with
  | nil =>
      obtain ⟨b, next, hmove, -⟩ := h.uncons
      obtain ⟨given, c, backing⟩ := m
      cases hmove
      exact ⟨_, .nil _, rfl⟩
  | cons head rest ih =>
      obtain ⟨b, next, hmove, hrest⟩ := h.uncons
      obtain ⟨mid, htrail, hmid⟩ := ih hrest
      obtain ⟨given, c, backing⟩ := m
      exact ⟨mid, .change b (.cons hmove htrail), hmid⟩

theorem wellFormed (h : Trail ctx stages m last) (hm : m.WellFormed ctx.registry) :
    last.WellFormed ctx.registry := by
  induction h with
  | nil => exact hm
  | cons hmove _ ih => exact ih (hmove.wellFormed hm)
  | change other _ ih => exact ih hm

/-- As long as the groups are not forgotten, every group stays at its place. -/
theorem samePlace
    (h : Trail ctx stages m last) (hkept : ∀ stage ∈ stages, stage.forgets ctx = false)
    {root : RootType} {group : RecordGroup}
    (hget : m.coordinator.window.get? root = some group) :
    ∃ held, last.coordinator.window.get? root = some held ∧ held.SamePlace group := by
  induction h generalizing group with
  | nil => exact ⟨group, hget, .refl group⟩
  | cons hmove _ ih =>
      obtain ⟨held, hheld, hplace⟩ := hmove.samePlace (hkept _ List.mem_cons_self) hget
      obtain ⟨later, hlater, hlast⟩ :=
        ih (fun stage hmem => hkept stage (List.mem_cons_of_mem _ hmem)) hheld
      exact ⟨later, hlater, hlast.trans hplace⟩
  | change other _ ih => exact ih hkept hget

end Trail

theorem Course.trail [Store σ]
    {ctx : Context} {history : List (Stage σ)} {c last : Coordinator}
    (h : Course ctx history c last) (given : Bool) (b : Backing σ) :
    ∃ flag after, Trail ctx history ⟨given, c, b⟩ ⟨flag, last, after⟩ := by
  induction h generalizing given b with
  | nil c => exact ⟨given, b, .nil _⟩
  | cons operation other _ ih =>
      obtain ⟨flag, hpath⟩ := path_stages ctx given operation _ other
      obtain ⟨lastFlag, after, htrail⟩ := ih flag _
      exact ⟨lastFlag, after, .change other ((Trail.of_path hpath).append htrail)⟩

theorem Course.reachable [Store σ]
    {ctx : Context} {history : List (Stage σ)} {c last : Coordinator}
    (h : Course ctx history c last) (hc : Reachable ctx c) : Reachable ctx last := by
  induction h with
  | nil c => exact hc
  | cons operation b _ ih => exact ih (.step operation b hc)

theorem Course.samePlace [Store σ]
    {ctx : Context} {history : List (Stage σ)} {c last : Coordinator}
    (h : Course ctx history c last) (hkept : ∀ stage ∈ history, stage.forgets ctx = false)
    {root : RootType} {group : RecordGroup} (hget : c.window.get? root = some group) :
    ∃ held, last.window.get? root = some held ∧ held.SamePlace group := by
  induction h generalizing group with
  | nil => exact ⟨group, hget, .refl group⟩
  | cons operation b _ ih =>
      obtain ⟨flag, hpath⟩ := path_stages ctx false operation _ b
      obtain ⟨held, hheld, hsame⟩ := (Trail.of_path hpath).samePlace
        (fun stage hmem => hkept stage (List.mem_append_left _ hmem)) hget
      obtain ⟨later, hlater, hlast⟩ :=
        ih (fun stage hmem => hkept stage (List.mem_append_right _ hmem)) hheld
      exact ⟨later, hlater, hlast.trans hsame⟩

theorem Course.performAll [Store σ]
    (ctx : Context) (operations : List Operation) (c : Coordinator) (b : Backing σ) :
    Course ctx (performAll ctx operations c b).1 c (performAll ctx operations c b).2.1 := by
  induction operations generalizing c b with
  | nil => exact .nil c
  | cons operation rest ih => exact .cons operation b (ih _ _)

/-! ## The write that opened a group -/

/-- The write that has opened the group of a root type after a stage, given the one before. -/
def Stage.openerAfter [Store σ] (ctx : Context) (root : RootType) (held : Option Record)
    (stage : Stage σ) : Option Record :=
  if stage.forgets ctx then none
  else
    match held, stage with
    | none, .queue _ (.record record) => if record.root = root then some record else none
    | _, _ => held

/-- The write that has opened the group that a root type has after some stages: the first that was
buffered since the groups were forgotten last. -/
def opener [Store σ] (ctx : Context) (root : RootType) (history : List (Stage σ)) :
    Option Record :=
  history.foldl (Stage.openerAfter ctx root) none

/-- A root type has no group and no write has opened one, or a write has opened its group; off the
top level of a cascade the write determines the depth. -/
def OpenedBy (root : RootType) (held : Option Record) (c : Coordinator) : Prop :=
  (held = none ∧ c.window.get? root = none) ∨
    ∃ record group, held = some record ∧ c.window.get? root = some group ∧
      (record.depth ≠ 0 → group.depth = baseDepth + record.depth)

/-- Off the top level of a cascade the place of a group is counted from the base depth. -/
theorem placement_of_ne_zero
    {relative : Int} (h : relative ≠ 0) (imported : List RootType) (window : Window)
    (deepest : Int) :
    placement relative imported window deepest = .depth (baseDepth + relative) :=
  if_pos (Or.inl h)

/-- A root type without a group gets one by a move exactly if a write of it is buffered. -/
theorem Move.openedBy_of_none [Store σ]
    {ctx : Context} {stage : Stage σ} {m next : Moment σ} (hmove : Move ctx stage m next)
    (hforgets : stage.forgets ctx = false) {root : RootType}
    (hnone : m.coordinator.window.get? root = none) :
    OpenedBy root (stage.openerAfter ctx root none) next.coordinator := by
  cases hmove with
  | flush given reset c b =>
      refine Or.inl ⟨by simp [Stage.openerAfter], ?_⟩
      rw [window_flushWith, hforgets]
      simpa using hnone
  | member record found c b _ hfound =>
      have hroot : record.root ≠ root := by
        rintro rfl
        simp only [hfound] at hnone
        cases hnone
      have hinsert := get?_withRecord record found c root
      rw [if_neg hroot] at hinsert
      exact Or.inl ⟨by simp [Stage.openerAfter, hroot], hinsert.trans hnone⟩
  | entrant record depth c b _ _ hplace =>
      have hinsert := get?_withRecord record (.new record.root depth c.opened)
        (c.withOpened depth) root
      by_cases hroot : record.root = root
      · rw [if_pos hroot] at hinsert
        refine Or.inr ⟨record, _, by simp [Stage.openerAfter, hforgets, hroot], hinsert, ?_⟩
        intro hdeep
        rw [placement_of_ne_zero hdeep] at hplace
        cases hplace
        rfl
      · rw [if_neg hroot] at hinsert
        exact Or.inl ⟨by simp [Stage.openerAfter, hroot], hinsert.trans hnone⟩
  | clear given c b => cases hforgets
  | number | statement | force | execute | adjust =>
      exact Or.inl ⟨by simp [Stage.openerAfter], hnone⟩

theorem Move.openedBy [Store σ]
    {ctx : Context} {stage : Stage σ} {m next : Moment σ} (hmove : Move ctx stage m next)
    {root : RootType} {held : Option Record} (h : OpenedBy root held m.coordinator) :
    OpenedBy root (stage.openerAfter ctx root held) next.coordinator := by
  rcases hforgets : stage.forgets ctx with _ | _
  · rcases h with ⟨rfl, hnone⟩ | ⟨record, group, rfl, hget, hdepth⟩
    · exact hmove.openedBy_of_none hforgets hnone
    · -- The group is there already, and its place stays.
      obtain ⟨later, hlater, hplace⟩ := hmove.samePlace hforgets hget
      have hsame : stage.openerAfter ctx root (some record) = some record := by
        simp [Stage.openerAfter, hforgets]
      rw [hsame]
      exact Or.inr ⟨record, later, rfl, hlater, fun hdeep => hplace.depth.trans (hdepth hdeep)⟩
  · left
    have hnone : next.coordinator.window.get? root = none := by
      rw [hmove.window_of_forgets hforgets]
      rfl
    exact ⟨by simp [Stage.openerAfter, hforgets], hnone⟩

theorem Trail.openedBy [Store σ]
    {ctx : Context} {stages : List (Stage σ)} {m last : Moment σ} (h : Trail ctx stages m last)
    {root : RootType} {held : Option Record} (hm : OpenedBy root held m.coordinator) :
    OpenedBy root (stages.foldl (Stage.openerAfter ctx root) held) last.coordinator := by
  induction h generalizing held with
  | nil => exact hm
  | cons hmove _ ih => exact ih (hmove.openedBy hm)
  | change other _ ih => exact ih hm

/-- Every group has been opened by a write, which determines its depth off the top level. -/
theorem Course.opener_of_get? [Store σ]
    {ctx : Context} {policy : Policy} {history : List (Stage σ)} {c : Coordinator}
    (h : Course ctx history (.new policy) c) (b : Backing σ) {root : RootType}
    {group : RecordGroup} (hget : c.window.get? root = some group) :
    ∃ write, opener ctx root history = some write ∧
      (write.depth ≠ 0 → group.depth = baseDepth + write.depth) := by
  obtain ⟨flag, after, htrail⟩ := h.trail false b
  have hfirst : OpenedBy root none (.new policy) := Or.inl ⟨rfl, rfl⟩
  rcases htrail.openedBy hfirst with ⟨-, hnone⟩ | ⟨write, found, hwrite, hfound, hdepth⟩
  · simp only [hget] at hnone
    cases hnone
  · rw [hget] at hfound
    cases hfound
    exact ⟨write, hwrite, hdepth⟩

end Coordinator

end Cascade
