import Cascade.Proofs.Marks
import Cascade.Proofs.Precedence

/-!
# The window of depths

Between two resets the groups of a coordinator form a window that only grows:
a group that is there keeps its place, and a group that enters is younger than
all others.  The greatest depth of the window is known all along.  So a type
that imports nothing can be put below everything that is there, and it stays
the last to be executed for as long as nothing is opened below it.

Depths are integers here and have no greatest one.  The results are meant for
depths that fit into 32 bits with a sign, where sums of the two kinds agree.
-/

namespace Cascade.Coordinator

variable {σ : Type}

/-! ## The last group of a flush -/

/-- A flush of `c` over `b` executes the group `x` last: the store is asked for the calls of `x`
after all others. -/
def ExecutesLast [Store σ] (ctx : Context) (reset : Bool) (c : Coordinator)
    (b : Backing (Watched σ)) (x : RecordGroup) : Prop :=
  let calls := RecordGroup.calls ctx.registry c.policy.batchSize
  ∃ front, c.window.ordered = front ++ [x] ∧
    FlushMakes ctx reset c b (c.statements.groups ++ front.flatMap calls ++ calls x)

theorem WellFormed.executesLast_iff [Store σ]
    {ctx : Context} {n : Nat} {c : Coordinator} (h : c.WellFormed ctx.registry n) (reset : Bool)
    (b : Backing (Watched σ)) {x : RecordGroup} (hx : x ∈ c.window.values) :
    ExecutesLast ctx reset c b x ↔ ∀ y ∈ c.window.values, y ≠ x → y.precedes x := by
  have hsorted := h.pairwise_ordered
  constructor
  · rintro ⟨front, hordered, -⟩ y hy hne
    rw [hordered, List.pairwise_append] at hsorted
    have hmem := mem_ordered_iff.2 hy
    rw [hordered] at hmem
    rcases List.mem_append.1 hmem with hmem | hmem
    · exact hsorted.2.2 y hmem x (List.mem_singleton_self x)
    · exact absurd (List.mem_singleton.1 hmem) hne
  · intro hprecedes
    obtain ⟨front, back, hordered⟩ := List.append_of_mem (mem_ordered_iff.2 hx)
    -- A group behind `x` would precede it as well.
    have hback : back = [] := by
      refine List.eq_nil_iff_forall_not_mem.2 (fun y hy => ?_)
      rw [hordered, List.pairwise_append] at hsorted
      have hbehind := (List.pairwise_cons.1 hsorted.2.1).1 y hy
      have hne : y ≠ x := by
        rintro rfl
        exact y.not_precedes_self hbehind
      have hmem : y ∈ c.window.values := mem_ordered_iff.1 (by simp [hordered, hy])
      exact x.not_precedes_self (RecordGroup.precedes_trans hbehind (hprecedes y hmem hne))
    subst hback
    refine ⟨front, hordered, ?_⟩
    simpa [calls, hordered] using flushMakes_calls ctx reset h.sendable b

/-! ## Groups that enter -/

section Moves

variable [Store σ] {ctx : Context} {stage : Stage σ} {m next : Moment σ}

/-- Groups are counted as they are opened, and no move sets the count back. -/
theorem Move.opened_le (hmove : Move ctx stage m next) :
    m.coordinator.opened ≤ next.coordinator.opened := by
  cases hmove with
  | flush given reset c b =>
      refine Nat.le_of_eq ?_
      rw [coordinator_flushWith]
      split <;> rfl
  | entrant => exact Nat.le_succ _
  | number | statement | member | force | execute | clear | adjust => exact Nat.le_refl _

theorem Move.opened_le_sequence
    (hmove : Move ctx stage m next) {root : RootType} {group : RecordGroup}
    (hnone : m.coordinator.window.get? root = none)
    (hget : next.coordinator.window.get? root = some group) :
    m.coordinator.opened ≤ group.sequence := by
  cases hmove with
  | flush given reset c b =>
      simp only [window_flushWith] at hnone hget
      split at hget
      · cases hget
      · simp [hnone] at hget
  | member record found c b _ hfound =>
      have hinsert := get?_withRecord record found c root
      have hroot : record.root ≠ root := by
        rintro rfl
        simp only [hfound] at hnone
        cases hnone
      rw [if_neg hroot] at hinsert
      cases hget.symm.trans (hinsert.trans hnone)
  | entrant record depth c b _ _ _ =>
      have hinsert := get?_withRecord record (.new record.root depth c.opened)
        (c.withOpened depth) root
      by_cases hroot : record.root = root
      · rw [if_pos hroot] at hinsert
        cases hget.symm.trans hinsert
        exact Nat.le_refl _
      · rw [if_neg hroot] at hinsert
        cases hget.symm.trans (hinsert.trans hnone)
  | clear given c b => cases hget
  | number | statement | force | execute | adjust => cases hget.symm.trans hnone

/-- A group that a root type gets while the groups are not forgotten is opened meanwhile. -/
theorem Trail.opened_le_sequence
    {stages : List (Stage σ)} {last : Moment σ} (h : Trail ctx stages m last)
    (hkept : ∀ stage ∈ stages, stage.forgets ctx = false) {root : RootType} {group : RecordGroup}
    (hnone : m.coordinator.window.get? root = none)
    (hget : last.coordinator.window.get? root = some group) :
    m.coordinator.opened ≤ group.sequence := by
  induction h with
  | nil => cases hget.symm.trans hnone
  | @cons stage stages m next last hmove hrest ih =>
      have hrestkept : ∀ stage ∈ stages, stage.forgets ctx = false :=
        fun stage hmem => hkept stage (List.mem_cons_of_mem _ hmem)
      rcases hnext : next.coordinator.window.get? root with _ | entrant
      · exact Nat.le_trans hmove.opened_le (ih hrestkept hnext hget)
      · obtain ⟨held, hheld, hsame⟩ := hrest.samePlace hrestkept hnext
        cases hget.symm.trans hheld
        rw [hsame.sequence]
        exact hmove.opened_le_sequence hnone hnext
  | change other _ ih => exact ih hkept hnone hget

end Moves

/-! ## A type below all others -/

section Deepest

variable [Store σ] {ctx : Context} {record : Record} {c : Coordinator}

/-- A type that imports nothing is put one below the deepest group. -/
theorem placement_of_independent
    {window : Window} (hsome : window.isEmpty = false) (deepest : Int) :
    placement 0 [] window deepest = .depth (deepest + 1) := by
  simp [placement, hsome]

/-- In a flush that follows the opening of a group below all others, this group is executed last
exactly if every group that was opened since lies above it. -/
theorem FollowingFlush.executesLast_iff
    {b begun : Backing (Watched σ)} {reset : Bool} {d : Coordinator} {n : Nat} {depth : Int}
    (hwell : c.WellFormed ctx.registry n) (hle : n ≤ c.requests)
    (hknown : ctx.registry.contains record.root) (hnone : c.window.get? record.root = none)
    (hplace : placement record.depth (ctx.registry.imported record.root) c.window c.maxDepth =
      .depth depth)
    (hbelow : ∀ root group, c.window.get? root = some group → group.depth < depth)
    (h : FollowingFlush ctx record c b reset d begun) :
    ∃ child, d.window.get? record.root = some child ∧ child.depth = depth ∧
      (ExecutesLast ctx reset d begun child ↔
        ∀ root group, root ≠ record.root → c.window.get? root = none →
          d.window.get? root = some group → group.depth < depth) := by
  obtain ⟨⟨k, hd⟩, ⟨child, hchild, hdepth, hsequence⟩, hplaces⟩ :=
    h.places hwell hle hknown hnone hplace
  obtain ⟨-, before, -, mid, -, hkept, htrail, rfl⟩ := h.trail
  have hchildmem := Dictionary.mem_values_of_get?_eq_some hchild
  refine ⟨child, hchild, hdepth, ?_⟩
  rw [hd.executesLast_iff reset begun hchildmem]
  constructor
  · intro hprecedes root group hroot hnew hget
    have hne : group ≠ child := by
      rintro rfl
      have hown := (hd.sound _ (Assoc.mem_of_get?_eq_some hget)).own
      exact hroot (hown.symm.trans (hd.sound _ (Assoc.mem_of_get?_eq_some hchild)).own)
    have hbefore := hprecedes group (Dictionary.mem_values_of_get?_eq_some hget) hne
    have hyounger := htrail.opened_le_sequence hkept hnew hget
    rw [RecordGroup.precedes_iff, hdepth, hsequence] at hbefore
    simp only at hyounger
    omega
  · intro hlater group hmem hne
    obtain ⟨root, hget⟩ := Dictionary.exists_get?_of_mem_values hmem
    rw [RecordGroup.precedes_iff, hdepth]
    left
    rcases hold : c.window.get? root with _ | older
    · have hroot : root ≠ record.root := by
        rintro rfl
        exact hne (Option.some.inj (hget.symm.trans hchild))
      exact hlater root group hroot hold hget
    · obtain ⟨held, hheld, hsame⟩ := hplaces root older hold
      cases hget.symm.trans hheld
      rw [hsame.depth]
      exact hbelow root older hold

end Deepest

/-- What holds of the groups of a coordinator from one reset to the next. -/
structure DepthWindow (ctx : Context) (c : Coordinator) : Prop where
  /-- The greatest depth is that of the deepest group, drained or not, and not less than zero. -/
  maxDepth : c.maxDepth = (c.window.values.map RecordGroup.depth).foldr max 0
  distinct : (c.window.values.map RecordGroup.sequence).Nodup
  opened : ∀ group ∈ c.window.values, group.sequence < c.opened
  /-- Whatever operations follow, every group stays at its place until the groups are forgotten. -/
  stays : ∀ {τ : Type} [Store τ] {history : List (Stage τ)} {last : Coordinator},
    Course ctx history c last → (∀ stage ∈ history, stage.forgets ctx = false) →
      ∀ root group, c.window.get? root = some group →
        ∃ held, last.window.get? root = some held ∧ held.root = group.root ∧ held.SamePlace group
  /-- A type that imports nothing and comes at the top level is put below all groups that are there.
  In every flush until the groups are forgotten it is executed last exactly if every group that was
  opened after it lies above it. -/
  last : ∀ {record : Record}, ctx.registry.contains record.root → record.depth = 0 →
    ctx.registry.imported record.root = [] → c.window.get? record.root = none →
    c.window.isEmpty = false → ∀ {τ : Type} [Store τ] (b : Backing (Watched τ)),
      (∀ root group, c.window.get? root = some group → group.depth < c.maxDepth + 1) ∧
      (∀ reply, (perform ctx (.submit (.record record) true) c b).1 = .ok reply →
        (perform ctx (.submit (.record record) true) c b).2.1.groupDepth? record.root =
          some (c.maxDepth + 1)) ∧
      ∀ reset d begun, FollowingFlush ctx record c b reset d begun →
        ∃ child, d.window.get? record.root = some child ∧ child.depth = c.maxDepth + 1 ∧
          (ExecutesLast ctx reset d begun child ↔
            ∀ root group, root ≠ record.root → c.window.get? root = none →
              d.window.get? root = some group → group.depth < c.maxDepth + 1)

/-- At any time the groups of a coordinator form a window of distinct places, which only grows
between two resets. -/
theorem depthWindow_of_reachable {ctx : Context} {c : Coordinator} (hc : Reachable ctx c) :
    DepthWindow ctx c := by
  obtain ⟨n, hle, hwell⟩ := hc.wellFormed
  refine ⟨hc.marks.maxDepth, hwell.distinct, hwell.opened, ?_, ?_⟩
  · intro τ _ history last hcourse hkept root group hget
    obtain ⟨k, -, hlast⟩ := (hcourse.reachable hc).wellFormed
    obtain ⟨held, hheld, hsame⟩ := hcourse.samePlace hkept hget
    have hown := (hlast.sound _ (Assoc.mem_of_get?_eq_some hheld)).own
    have hroot := (hwell.sound _ (Assoc.mem_of_get?_eq_some hget)).own
    exact ⟨held, hheld, hown.trans hroot.symm, hsame⟩
  · intro record hknown htop himports hnone hsome τ _ b
    have hplace : placement record.depth (ctx.registry.imported record.root) c.window c.maxDepth =
        .depth (c.maxDepth + 1) := by
      rw [htop, himports]
      exact placement_of_independent hsome c.maxDepth
    have hbelow : ∀ root group, c.window.get? root = some group →
        group.depth < c.maxDepth + 1 := by
      intro root group hget
      have hdeepest := Window.depth_le_deepest (Dictionary.mem_values_of_get?_eq_some hget)
      rw [← hc.marks.maxDepth] at hdeepest
      exact Int.lt_add_one_of_le hdeepest
    refine ⟨hbelow, ?_, ?_⟩
    · intro reply hok
      obtain ⟨child, hchild, hdepth, -⟩ := places_of_submit hknown hnone hplace hok
      rw [groupDepth?, hchild, ← hdepth]
      rfl
    · intro reset d begun hflush
      exact hflush.executesLast_iff hwell hle hknown hnone hplace hbelow

/-- Beside three groups of the top level a fourth type that imports nothing is executed last. -/
theorem executed_last_of_fourth :
    ∃ child, (fourthOpened [] 0).1.window.get? ⟨"d"⟩ = some child ∧ child.depth = 103 ∧
      ExecutesLast (lettered []) false (fourthOpened [] 0).1 (fourthOpened [] 0).2 child := by
  have hknown : (lettered []).registry.contains (insertion "d" 0).root := by
    decide
  obtain ⟨-, -, hflush⟩ := (depthWindow_of_reachable (reachable_threeOpened [])).last
    hknown rfl (by decide) rfl (by decide) untouched
  obtain ⟨child, hchild, hdepth, hlast⟩ :=
    hflush false _ _ (followingFlush_fourthOpened rfl rfl false)
  refine ⟨child, hchild, hdepth.trans (by decide), hlast.2 ?_⟩
  intro root group hroot hnew hget
  -- Every other group was there before.
  have hentries : ∀ entry ∈ (fourthOpened [] 0).1.window.entries,
      entry.1 = ⟨"d"⟩ ∨ ((threeOpened []).2.1.window.get? entry.1).isSome := by
    decide
  rcases hentries _ (Assoc.mem_of_get?_eq_some hget) with hown | hold
  · exact absurd hown hroot
  · simp only [hnew] at hold
    cases hold

end Cascade.Coordinator
