import Cascade.Proofs.Submissions
import Cascade.Proofs.Tenure

/-!
# Which group is executed first

A write that opens a group settles the order between this group and the groups
that are there already: it is the same in every flush until the groups are
forgotten.  An older group is executed first exactly if it is not deeper than
the new one.

From this follows what the places given by `placement` are worth.  A group of a
type that imports others is put behind the first of them that is declared and
has a group, and behind another one only if that lies not deeper.  A group off
the top level of a cascade is put at a fixed depth, and so behind the groups of
lesser cascade depth unless they have been pushed below that depth.

Depths are integers here and have no greatest one.  The results are meant for
depths that fit into 32 bits with a sign, where sums of the two kinds agree.
-/

namespace Cascade.Coordinator

variable {σ : Type}

/-- A flush of `c` over `b` makes the calls of the given groups of statements in their order: all of
them, or those up to the first call that is refused, and then it fails. -/
def FlushMakes [Store σ] (ctx : Context) (reset : Bool) (c : Coordinator) (b : Backing (Watched σ))
    (groups : List StatementGroup) : Prop :=
  ∃ made, (c.flushWith ctx reset b).2.2.store.seen.map Seen.call =
      b.store.seen.map Seen.call ++
        (groups.map (StatementGroup.call c.policy.fetchKeys)).take made ∧
    ∀ totals, (c.flushWith ctx reset b).1 = .ok totals → made = groups.length

/-- A flush of `c` over `b` executes the group `x` before the group `y`: the store is asked for the
calls of `x` before those of `y`. -/
def ExecutesBefore [Store σ] (ctx : Context) (reset : Bool) (c : Coordinator)
    (b : Backing (Watched σ)) (x y : RecordGroup) : Prop :=
  let calls := RecordGroup.calls ctx.registry c.policy.batchSize
  ∃ front middle back, c.window.ordered = front ++ x :: (middle ++ y :: back) ∧
    FlushMakes ctx reset c b (c.statements.groups ++ front.flatMap calls ++ calls x ++
      middle.flatMap calls ++ calls y ++ back.flatMap calls)

theorem flushMakes_calls [Store σ]
    (ctx : Context) (reset : Bool) {c : Coordinator} (h : c.Sendable ctx.registry)
    (b : Backing (Watched σ)) : FlushMakes ctx reset c b (c.calls ctx.registry) := by
  refine ⟨(attempted c.policy.fetchKeys (c.calls ctx.registry) b.store).length, ?_, ?_⟩
  · rw [flushWith_seen ctx reset h, List.map_append, List.map_map, ← List.map_take,
      ← attempted_groups, List.map_map]
    rfl
  · intro totals hok
    rcases flushWith_cases ctx reset h b with
      ⟨-, hattempted, -⟩ | ⟨sent, refused, rest, e, -, -, hfail, -⟩
    · rw [hattempted, List.length_map]
    · rw [hfail] at hok
      cases hok

theorem before_or_before {α : Type} {x y : α} {entries : List α}
    (hx : x ∈ entries) (hy : y ∈ entries) (hne : x ≠ y) :
    (∃ front middle back, entries = front ++ x :: (middle ++ y :: back)) ∨
      ∃ front middle back, entries = front ++ y :: (middle ++ x :: back) := by
  obtain ⟨front, back, rfl⟩ := List.append_of_mem hx
  rcases List.mem_append.1 hy with hy | hy
  · obtain ⟨first, second, rfl⟩ := List.append_of_mem hy
    exact Or.inr ⟨first, second, back, by simp⟩
  · obtain ⟨first, second, rfl⟩ := List.append_of_mem (List.mem_of_ne_of_mem hne.symm hy)
    exact Or.inl ⟨front, first, second, rfl⟩

theorem WellFormed.executesBefore_iff [Store σ]
    {ctx : Context} {n : Nat} {c : Coordinator} (h : c.WellFormed ctx.registry n) (reset : Bool)
    (b : Backing (Watched σ)) {x y : RecordGroup} (hx : x ∈ c.window.values)
    (hy : y ∈ c.window.values) :
    ExecutesBefore ctx reset c b x y ↔ x.precedes y := by
  have hsorted := h.pairwise_ordered
  constructor
  · rintro ⟨front, middle, back, hordered, -⟩
    rw [hordered] at hsorted
    have hlater := List.pairwise_append.1 hsorted
    exact (List.pairwise_cons.1 hlater.2.1).1 y (by simp)
  · intro hprecedes
    have hne : x ≠ y := by
      rintro rfl
      exact x.not_precedes_self hprecedes
    rcases before_or_before (mem_ordered_iff.2 hx) (mem_ordered_iff.2 hy) hne with
      ⟨front, middle, back, hordered⟩ | ⟨front, middle, back, hordered⟩
    · refine ⟨front, middle, back, hordered, ?_⟩
      simpa [calls, hordered] using flushMakes_calls ctx reset h.sendable b
    · -- In the other order `y` would precede `x` as well.
      rw [hordered] at hsorted
      have hlater := List.pairwise_append.1 hsorted
      have hback := (List.pairwise_cons.1 hlater.2.1).1 x (by simp)
      exact absurd (RecordGroup.precedes_trans hprecedes hback) x.not_precedes_self

/-! ## After a group was opened -/

/-- A flush of `d` over `begun` that comes after a write of a root type was submitted to `c`, in the
submission itself or in a later operation: the type has a group by then, and the groups have not
been forgotten in between. -/
def FollowingFlush [Store σ] (ctx : Context) (record : Record) (c : Coordinator) (b : Backing σ)
    (reset : Bool) (d : Coordinator) (begun : Backing σ) : Prop :=
  ∃ history last before rest,
    Course ctx history (perform ctx (.submit (.record record) true) c b).2.1 last ∧
    stages ctx (.submit (.record record) true) c b ++ history =
      before ++ .flush reset d begun :: rest ∧
    (∀ stage ∈ before, stage.forgets ctx = false) ∧
    (d.window.get? record.root).isSome

section Opening

variable [Store σ] {ctx : Context} {record : Record} {c : Coordinator} {depth : Int}

theorem settled_of_not_forgets
    {reset : Bool} {b : Backing σ} (h : (Stage.flush reset c b).forgets ctx = false) :
    ∃ totals, (c.flushWith ctx reset b).2.1 = c.settled false totals := by
  have hafter := coordinator_flushWith ctx reset c b
  rcases hresult : (c.flushWith ctx reset b).1 with e | totals
  · simp [Stage.forgets, hresult] at h
  · rw [hresult] at hafter
    have hreset : reset = false := by simpa [Stage.forgets, hresult] using h
    exact ⟨totals, by rw [hafter, hreset]⟩

/-- A write whose group has a known place is numbered and buffered, and at most flushes follow. -/
theorem stages_traceQueueRecord_entrant
    (hnone : c.window.get? record.root = none)
    (hplace : placement record.depth (ctx.registry.imported record.root) c.window c.maxDepth =
      .depth depth) (b : Backing σ) :
    ∃ tail, (traceQueueRecord ctx record c b).1 =
        .number :: .queue c.numbered.latest (.record record) :: tail ∧
      ∀ stage ∈ tail, ∃ d begun, stage = .flush false d begun := by
  have hnone' : c.numbered.window.get? record.root = none := hnone
  have hplace' : placement record.depth (ctx.registry.imported record.root) c.numbered.window
      c.numbered.maxDepth = .depth depth := hplace
  simp only [traceQueueRecord, traceFile, tracePlaceGroup, Traced.andThen, Traced.stage,
    Traced.done, hnone', hplace']
  refine ⟨_, rfl, ?_⟩
  intro stage hmem
  exact ⟨_, _, (mem_traceFlushIf_iff.1 (mem_andThen_done.1 hmem)).2⟩

/-- A write whose group has a known place is numbered and buffered, unless the flush before it
fails. -/
theorem stages_submit_entrant
    (hknown : ctx.registry.contains record.root) (hnone : c.window.get? record.root = none)
    (hplace : placement record.depth (ctx.registry.imported record.root) c.window c.maxDepth =
      .depth depth) (b : Backing σ) :
    ((∃ e, (c.flushWith ctx false b).1 = .error e) ∧
        stages ctx (.submit (.record record) true) c b = [.flush false c b]) ∨
      ∃ mixed id tail, (mixed = [] ∨ mixed = [.flush false c b]) ∧
        stages ctx (.submit (.record record) true) c b =
          mixed ++ .number :: .queue id (.record record) :: tail ∧
        ∀ stage ∈ tail, ∃ d begun, stage = .flush false d begun := by
  rw [stages_submit, traceSubmit, traceSubmitRecord, if_pos hknown]
  unfold traceFlushIf
  split
  · rcases settled_or_wiped ctx false c b with ⟨totals, after, hresult⟩ | ⟨e, after, hresult⟩
    · right
      obtain ⟨hnone', hplace'⟩ := settled_entrant hnone hplace totals
      obtain ⟨tail, hqueue, htail⟩ := stages_traceQueueRecord_entrant hnone' hplace' after
      refine ⟨[.flush false c b], (c.settled false totals).numbered.latest, tail, Or.inr rfl, ?_,
        htail⟩
      simp [traceFlush, Traced.andThen, Traced.done, hresult, hqueue]
    · exact Or.inl ⟨⟨e, by rw [hresult]⟩, by simp [traceFlush, Traced.andThen, hresult]⟩
  · right
    obtain ⟨tail, hqueue, htail⟩ := stages_traceQueueRecord_entrant hnone hplace b
    refine ⟨[], c.numbered.latest, tail, Or.inl rfl, ?_, htail⟩
    simp [Traced.andThen, Traced.done, hqueue]

/-- The root type of a record has a group at a depth that was opened as the given one. -/
def Places (record : Record) (depth : Int) (sequence : Nat) (c : Coordinator) : Prop :=
  ∃ child, c.window.get? record.root = some child ∧ child.depth = depth ∧
    child.sequence = sequence

/-- A numbered and buffered write opens a group, which stays at its place. -/
theorem Trail.places
    {given : Bool} {b : Backing σ} {id : RequestId} {others : List (Stage σ)} {last : Moment σ}
    (hnone : c.window.get? record.root = none)
    (hplace : placement record.depth (ctx.registry.imported record.root) c.window c.maxDepth =
      .depth depth)
    (h : Trail ctx (.number :: .queue id (.record record) :: others) ⟨given, c, b⟩ last)
    (hkept : ∀ stage ∈ others, stage.forgets ctx = false) :
    Places record depth c.opened last.coordinator := by
  obtain ⟨b', numbered, hnumber, hrest⟩ := h.uncons
  cases hnumber
  obtain ⟨b'', next, hqueue, htrail⟩ := hrest.uncons
  cases hqueue with
  | member _ group _ _ _ hget =>
      have hget' : c.window.get? record.root = some group := hget
      rw [hnone] at hget'
      cases hget'
  | entrant _ found _ _ _ _ hfound =>
      have hfound' : placement record.depth (ctx.registry.imported record.root) c.window
          c.maxDepth = .depth found := hfound
      have hdepth : found = depth := Placement.depth.inj (hfound'.symm.trans hplace)
      have hinsert := get?_withRecord record (.new record.root found c.opened)
        (c.numbered.withOpened found) record.root
      rw [if_pos rfl] at hinsert
      obtain ⟨child, hchild, hsame⟩ := htrail.samePlace hkept hinsert
      exact ⟨child, hchild, hsame.depth.trans hdepth, hsame.sequence⟩

/-- It does so as well behind the flush that comes first where requests must not be mixed. -/
theorem Trail.places_behind
    {given : Bool} {b begun : Backing σ} {id : RequestId} {mixed others : List (Stage σ)}
    {last : Moment σ} (hmixed : mixed = [] ∨ mixed = [.flush false c begun])
    (hnone : c.window.get? record.root = none)
    (hplace : placement record.depth (ctx.registry.imported record.root) c.window c.maxDepth =
      .depth depth)
    (h : Trail ctx (mixed ++ .number :: .queue id (.record record) :: others) ⟨given, c, b⟩ last)
    (hkept : ∀ stage ∈ mixed ++ others, stage.forgets ctx = false) :
    Places record depth c.opened last.coordinator := by
  rcases hmixed with rfl | rfl
  · exact h.places hnone hplace hkept
  · obtain ⟨other, next, hmove, hrest⟩ := h.uncons
    cases hmove
    obtain ⟨totals, hsettled⟩ := settled_of_not_forgets (hkept _ List.mem_cons_self)
    rw [hsettled] at hrest
    obtain ⟨hnone', hplace'⟩ := settled_entrant hnone hplace totals
    have hplaces := hrest.places hnone' hplace'
      (fun stage hmem => hkept stage (List.mem_cons_of_mem _ hmem))
    exact hplaces

omit [Store σ] in
/-- Where a write is numbered and buffered, at most behind a flush of `c`, a flush of another
coordinator comes after it. -/
theorem exists_front_of_flush
    {b begun : Backing σ} {reset : Bool} {d : Coordinator} {id : RequestId}
    {mixed tail before rest : List (Stage σ)} (hmixed : mixed = [] ∨ mixed = [.flush false c b])
    (hne : d ≠ c)
    (h : mixed ++ .number :: .queue id (.record record) :: tail =
      before ++ .flush reset d begun :: rest) :
    ∃ front, before = mixed ++ .number :: .queue id (.record record) :: front := by
  have hsplit : (mixed ++ [.number, .queue id (.record record)]) ++ tail =
      before ++ .flush reset d begun :: rest := by
    simpa using h
  rcases List.append_eq_append_iff.1 hsplit with ⟨front, hbefore, -⟩ | ⟨between, hop, hrest⟩
  · exact ⟨front, by simpa using hbefore⟩
  · rcases between with _ | ⟨first, between⟩
    · exact ⟨[], by simpa using hop.symm⟩
    · -- The flush would be among the stages up to the write, of which only one of `c` is a flush.
      cases hrest
      have hmem : .flush reset d begun ∈ mixed ++ [.number, .queue id (.record record)] := by
        simp [hop]
      rcases hmixed with rfl | rfl
      · simp at hmem
      · simp [hne] at hmem

theorem FollowingFlush.isSome
    {b begun : Backing σ} {reset : Bool} {d : Coordinator}
    (h : FollowingFlush ctx record c b reset d begun) : (d.window.get? record.root).isSome := by
  obtain ⟨_, _, _, _, -, -, -, hsome⟩ := h
  exact hsome

/-- A flush that follows a submission is led to by stages in which the groups are not forgotten. -/
theorem FollowingFlush.trail
    {b begun : Backing σ} {reset : Bool} {d : Coordinator}
    (h : FollowingFlush ctx record c b reset d begun) :
    ∃ history before rest mid,
      stages ctx (.submit (.record record) true) c b ++ history =
        before ++ .flush reset d begun :: rest ∧
      (∀ stage ∈ before, stage.forgets ctx = false) ∧
      Trail ctx before ⟨false, c, b⟩ mid ∧ mid.coordinator = d := by
  obtain ⟨history, last, before, rest, hcourse, hstages, hkept, -⟩ := h
  obtain ⟨flag, hpath⟩ := path_stages ctx false (.submit (.record record) true) c b
  obtain ⟨lastFlag, after, hcourse⟩ := hcourse.trail flag _
  have htrail := (Trail.of_path hpath).append hcourse
  rw [hstages] at htrail
  obtain ⟨mid, hbefore, hmid⟩ := htrail.to_flush
  exact ⟨history, before, rest, mid, hstages, hkept, hbefore, hmid⟩

/-- In a flush that follows the opening of a group, this group is at its place and every older group
is where it was. -/
theorem FollowingFlush.places
    {b begun : Backing σ} {reset : Bool} {d : Coordinator} {n : Nat}
    (hwell : c.WellFormed ctx.registry n) (hle : n ≤ c.requests)
    (hknown : ctx.registry.contains record.root) (hnone : c.window.get? record.root = none)
    (hplace : placement record.depth (ctx.registry.imported record.root) c.window c.maxDepth =
      .depth depth)
    (h : FollowingFlush ctx record c b reset d begun) :
    (∃ k, d.WellFormed ctx.registry k) ∧ Places record depth c.opened d ∧
      ∀ root group, c.window.get? root = some group →
        ∃ held, d.window.get? root = some held ∧ held.SamePlace group := by
  have hsome := h.isSome
  obtain ⟨history, before, rest, mid, hstages, hkept, hbefore, rfl⟩ := h.trail
  refine ⟨?_, ?_, fun root group hget => hbefore.samePlace hkept hget⟩
  · obtain ⟨k, -, hk⟩ := hbefore.wellFormed ⟨n, ⟨hle, nofun⟩, hwell⟩
    exact ⟨k, hk⟩
  · -- The flush is not the one before the write is buffered: by then there is no group.
    have hnot : mid.coordinator ≠ c := by
      intro hsame
      simp [hsame, hnone] at hsome
    rcases stages_submit_entrant hknown hnone hplace b with
      ⟨⟨e, hfail⟩, hop⟩ | ⟨mixed, id, tail, hmixed, hop, -⟩
    · rw [hop] at hstages
      rcases before with _ | ⟨first, front⟩
      · cases hstages
        exact absurd rfl hnot
      · cases hstages
        have hforgets := hkept _ List.mem_cons_self
        simp [Stage.forgets, hfail] at hforgets
    · rw [hop, List.append_assoc] at hstages
      obtain ⟨front, rfl⟩ := exists_front_of_flush hmixed hnot hstages
      refine hbefore.places_behind hmixed hnone hplace (fun stage hmem => hkept stage ?_)
      rcases List.mem_append.1 hmem with hmem | hmem
      · exact List.mem_append_left _ hmem
      · exact List.mem_append_right _ (List.mem_cons_of_mem _ (List.mem_cons_of_mem _ hmem))

/-- A write that opens a group leaves it at its place, unless a flush of it fails. -/
theorem places_of_submit
    {b : Backing σ} {reply : Reply} (hknown : ctx.registry.contains record.root)
    (hnone : c.window.get? record.root = none)
    (hplace : placement record.depth (ctx.registry.imported record.root) c.window c.maxDepth =
      .depth depth)
    (hok : (perform ctx (.submit (.record record) true) c b).1 = .ok reply) :
    Places record depth c.opened (perform ctx (.submit (.record record) true) c b).2.1 := by
  have hnofail : ∀ d begun, Stage.flush false d begun ∈
      stages ctx (.submit (.record record) true) c b →
        (Stage.flush false d begun).forgets ctx = false := by
    intro d begun hmem
    rcases hresult : (d.flushWith ctx false begun).1 with e | totals
    · rw [perform_of_failed_flush ctx hmem hresult] at hok
      cases hok
    · simp [Stage.forgets, hresult]
  obtain ⟨flag, hpath⟩ := path_stages ctx false (.submit (.record record) true) c b
  rcases stages_submit_entrant hknown hnone hplace b with
    ⟨⟨e, hfail⟩, hop⟩ | ⟨mixed, id, tail, hmixed, hop, htail⟩
  · have hforgets := hnofail c b (by simp [hop])
    simp [Stage.forgets, hfail] at hforgets
  · rw [hop] at hpath hnofail
    refine (Trail.of_path hpath).places_behind hmixed hnone hplace ?_
    intro stage hmem
    rcases List.mem_append.1 hmem with hmem | hmem
    · rcases hmixed with rfl | rfl
      · cases hmem
      · rw [List.mem_singleton.1 hmem]
        exact hnofail c b (by simp)
    · obtain ⟨d, begun, rfl⟩ := htail stage hmem
      exact hnofail d begun (by simp [hmem])

/-- A flush after the opening of a group executes an older group before it exactly if that one is
not deeper, and after it otherwise. -/
theorem FollowingFlush.executesBefore_iff
    {b begun : Backing (Watched σ)} {reset : Bool} {d : Coordinator} {n : Nat}
    (hwell : c.WellFormed ctx.registry n) (hle : n ≤ c.requests)
    (hknown : ctx.registry.contains record.root) (hnone : c.window.get? record.root = none)
    (hplace : placement record.depth (ctx.registry.imported record.root) c.window c.maxDepth =
      .depth depth)
    (h : FollowingFlush ctx record c b reset d begun) {root : RootType} {group : RecordGroup}
    (hget : c.window.get? root = some group) :
    ∃ child held, d.window.get? record.root = some child ∧ d.window.get? root = some held ∧
      child.depth = depth ∧ held.depth = group.depth ∧
      (ExecutesBefore ctx reset d begun held child ↔ group.depth ≤ depth) ∧
      (ExecutesBefore ctx reset d begun child held ↔ depth < group.depth) := by
  obtain ⟨⟨k, hd⟩, ⟨child, hchild, hdepth, hsequence⟩, hplaces⟩ :=
    h.places hwell hle hknown hnone hplace
  obtain ⟨held, hheld, hsame⟩ := hplaces root group hget
  have hchildmem := Dictionary.mem_values_of_get?_eq_some hchild
  have hheldmem := Dictionary.mem_values_of_get?_eq_some hheld
  have hyounger : held.sequence < child.sequence := by
    rw [hsame.sequence, hsequence]
    exact hwell.opened group (Dictionary.mem_values_of_get?_eq_some hget)
  refine ⟨child, held, hchild, hheld, hdepth, hsame.depth, ?_, ?_⟩
  · rw [hd.executesBefore_iff reset begun hheldmem hchildmem, RecordGroup.precedes_iff,
      hdepth, hsame.depth]
    omega
  · rw [hd.executesBefore_iff reset begun hchildmem hheldmem, RecordGroup.precedes_iff,
      hdepth, hsame.depth]
    omega

end Opening

theorem FollowingFlush.of_flush [Store σ]
    {ctx : Context} {record : Record} {c : Coordinator} {b : Backing σ}
    (hkept : ∀ stage ∈ stages ctx (.submit (.record record) true) c b, stage.forgets ctx = false)
    (hsome : ((perform ctx (.submit (.record record) true) c b).2.1.window.get?
      record.root).isSome) (reset : Bool) :
    FollowingFlush ctx record c b reset (perform ctx (.submit (.record record) true) c b).2.1
      (perform ctx (.submit (.record record) true) c b).2.2 := by
  have hcourse : Course ctx _ (perform ctx (.submit (.record record) true) c b).2.1 _ :=
    .cons (.flush reset) (perform ctx (.submit (.record record) true) c b).2.2 (.nil _)
  rw [stages_flush, List.append_nil] at hcourse
  exact ⟨_, _, _, [], hcourse, rfl, hkept, hsome⟩

/-! ## Imported types -/

/-- A type that imports one that has a group is put one below the first such type. -/
theorem placement_of_import
    {imported : List RootType} {window : Window} {target : RootType} {parent : RecordGroup}
    (htarget : target ∈ imported) (hparent : window.get? target = some parent) (deepest : Int) :
    ∃ first, imported.findSome? (fun target => window.get? target) = some first ∧
      placement 0 imported window deepest = .depth (first.depth + 1) := by
  rcases hfirst : imported.findSome? (fun target => window.get? target) with _ | first
  · have hnone := List.findSome?_eq_none_iff.1 hfirst target htarget
    simp only [hparent] at hnone
    cases hnone
  · refine ⟨first, rfl, ?_⟩
    have hsome : imported.isEmpty = false :=
      List.isEmpty_eq_false_iff_exists_mem.2 ⟨target, htarget⟩
    simp [placement, hfirst, hsome, Window.isEmpty_of_get?_eq_some hparent]

/-- The group of a type is opened at the top level beside groups of types that it imports.  It is
put one below the first of these in the order of declaration, so it is deeper than the group of an
imported type exactly if that is not deeper than the first.

In every flush until the groups are forgotten, the imported type is executed first exactly if its
group is at most one deeper than the first. -/
theorem imported_first_iff [Store σ]
    {ctx : Context} {c : Coordinator} (hc : Reachable ctx c) {record : Record}
    (hknown : ctx.registry.contains record.root) (htop : record.depth = 0)
    (hnone : c.window.get? record.root = none) {target : RootType} {parent : RecordGroup}
    (htarget : target ∈ ctx.registry.imported record.root)
    (hparent : c.window.get? target = some parent) (b : Backing (Watched σ)) :
    ∃ first, (ctx.registry.imported record.root).findSome? (fun target => c.window.get? target) =
        some first ∧
      (∀ reply, (perform ctx (.submit (.record record) true) c b).1 = .ok reply →
        ∃ depth, (perform ctx (.submit (.record record) true) c b).2.1.groupDepth? record.root =
            some depth ∧
          (parent.depth < depth ↔ parent.depth ≤ first.depth)) ∧
      ∀ reset d begun, FollowingFlush ctx record c b reset d begun →
        ∃ child held, d.window.get? record.root = some child ∧ d.window.get? target = some held ∧
          (held.depth < child.depth ↔ parent.depth ≤ first.depth) ∧
          (ExecutesBefore ctx reset d begun held child ↔ parent.depth ≤ first.depth + 1) ∧
          (ExecutesBefore ctx reset d begun child held ↔ first.depth + 1 < parent.depth) := by
  obtain ⟨n, hle, hwell⟩ := hc.wellFormed
  obtain ⟨first, hfirst, hplace⟩ := placement_of_import htarget hparent c.maxDepth
  rw [← htop] at hplace
  refine ⟨first, hfirst, ?_, ?_⟩
  · intro reply hok
    obtain ⟨child, hchild, hdepth, -⟩ := places_of_submit hknown hnone hplace hok
    refine ⟨first.depth + 1, ?_, by omega⟩
    rw [groupDepth?, hchild, ← hdepth]
    rfl
  · intro reset d begun hflush
    obtain ⟨child, held, hchild, hheld, hdepth, hsame, hbefore, hafter⟩ :=
      hflush.executesBefore_iff hwell hle hknown hnone hplace hparent
    exact ⟨child, held, hchild, hheld, by omega, hbefore, hafter⟩

def threeOpened (imported : List RootType) :
    List (Stage (Watched Memory)) × Coordinator × Backing (Watched Memory) :=
  performAll (lettered imported)
    (["a", "b", "c"].map (fun root => .submit (.record (insertion root 0)) true))
    (.new {}) untouched

theorem reachable_threeOpened (imported : List RootType) :
    Reachable (lettered imported) (threeOpened imported).2.1 :=
  (Reachable.new {}).performAll _ untouched

def fourthOpened (imported : List RootType) (depth : Int) :
    Coordinator × Backing (Watched Memory) :=
  (perform (lettered imported) (.submit (.record (insertion "d" depth)) true)
    (threeOpened imported).2.1 untouched).2

theorem followingFlush_fourthOpened
    {imported : List RootType} {depth : Int}
    (hkept : (stages (lettered imported) (.submit (.record (insertion "d" depth)) true)
      (threeOpened imported).2.1 untouched).all (fun stage => !stage.forgets (lettered imported)))
    (hsome : ((fourthOpened imported depth).1.window.get? ⟨"d"⟩).isSome) (reset : Bool) :
    FollowingFlush (lettered imported) (insertion "d" depth) (threeOpened imported).2.1 untouched
      reset (fourthOpened imported depth).1 (fourthOpened imported depth).2 :=
  .of_flush (fun stage hmem => by simpa using List.all_eq_true.1 hkept stage hmem) hsome reset

/-- Where `d` imports `a` and `c`, the type declared first is executed first. -/
theorem imported_first_of_first_declared :
    ∃ child held, (fourthOpened [⟨"a"⟩, ⟨"c"⟩] 0).1.window.get? ⟨"d"⟩ = some child ∧
      (fourthOpened [⟨"a"⟩, ⟨"c"⟩] 0).1.window.get? ⟨"a"⟩ = some held ∧ held.depth < child.depth ∧
      ExecutesBefore (lettered [⟨"a"⟩, ⟨"c"⟩]) false (fourthOpened [⟨"a"⟩, ⟨"c"⟩] 0).1
        (fourthOpened [⟨"a"⟩, ⟨"c"⟩] 0).2 held child := by
  have hknown : (lettered [⟨"a"⟩, ⟨"c"⟩]).registry.contains (insertion "d" 0).root := by
    decide
  have htarget : ⟨"a"⟩ ∈ (lettered [⟨"a"⟩, ⟨"c"⟩]).registry.imported (insertion "d" 0).root := by
    decide
  obtain ⟨first, hfirst, -, hflush⟩ :=
    imported_first_iff (reachable_threeOpened _) hknown rfl rfl htarget rfl untouched
  cases hfirst
  obtain ⟨child, held, hchild, hheld, hdepth, hbefore, -⟩ :=
    hflush false _ _ (followingFlush_fourthOpened rfl rfl false)
  exact ⟨child, held, hchild, hheld, hdepth.2 (by decide), hbefore.2 (by decide)⟩

/-- The other type that `d` imports is deeper than `d`, and it is executed last. -/
theorem executed_before_imported :
    ⟨"c"⟩ ∈ (lettered [⟨"a"⟩, ⟨"c"⟩]).registry.imported ⟨"d"⟩ ∧
      (threeOpened [⟨"a"⟩, ⟨"c"⟩]).2.1.groupDepth? ⟨"d"⟩ = none ∧
      (fourthOpened [⟨"a"⟩, ⟨"c"⟩] 0).1.groupDepth? ⟨"d"⟩ = some 101 ∧
      (fourthOpened [⟨"a"⟩, ⟨"c"⟩] 0).1.groupDepth? ⟨"c"⟩ = some 102 ∧
      ((fourthOpened [⟨"a"⟩, ⟨"c"⟩] 0).1.flush (lettered [⟨"a"⟩, ⟨"c"⟩])
        (fourthOpened [⟨"a"⟩, ⟨"c"⟩] 0).2).2.2.store.behind.executed.map Executed.text =
          ["insert into a () values ()", "insert into b () values ()",
            "insert into d () values ()", "insert into c () values ()"] := by
  decide

/-! ## Cascades -/

/-- The group of a type is opened off the top level of a cascade.  In every flush until the groups
are forgotten, a group that was opened at a lesser cascade depth is executed first exactly if it is
not deeper than the cascade depth counted from the base depth; if it was opened off the top level
as well, it is always executed first. -/
theorem cascade_first_iff [Store σ]
    {ctx : Context} {policy : Policy} {past : List (Stage (Watched σ))} {c : Coordinator}
    (hc : Course ctx past (.new policy) c) {record : Record}
    (hknown : ctx.registry.contains record.root) (hdeep : 0 < record.depth)
    (hnone : c.window.get? record.root = none) {root : RootType} {group : RecordGroup}
    (hgroup : c.window.get? root = some group) (b : Backing (Watched σ)) :
    ∃ write, opener ctx root past = some write ∧
      ∀ reset d begun, FollowingFlush ctx record c b reset d begun →
        ∃ child held, d.window.get? record.root = some child ∧ d.window.get? root = some held ∧
          child.depth = baseDepth + record.depth ∧ held.depth = group.depth ∧
          (write.depth < record.depth →
            (ExecutesBefore ctx reset d begun held child ↔
              group.depth ≤ baseDepth + record.depth) ∧
            (ExecutesBefore ctx reset d begun child held ↔
              baseDepth + record.depth < group.depth) ∧
            (write.depth ≠ 0 → ExecutesBefore ctx reset d begun held child)) := by
  obtain ⟨write, hwrite, hdepth⟩ := hc.opener_of_get? b hgroup
  refine ⟨write, hwrite, ?_⟩
  intro reset d begun hflush
  obtain ⟨flag, after, htrail⟩ := hc.trail false b
  obtain ⟨n, hn, hwell⟩ := htrail.wellFormed ⟨0, ⟨Nat.le_refl _, nofun⟩, .of_nothing rfl rfl⟩
  have hplace := placement_of_ne_zero (Int.ne_of_gt hdeep) (ctx.registry.imported record.root)
    c.window c.maxDepth
  obtain ⟨child, held, hchild, hheld, hchilddepth, hsame, hbefore, hafter⟩ :=
    hflush.executesBefore_iff hwell hn.le hknown hnone hplace hgroup
  refine ⟨child, held, hchild, hheld, hchilddepth, hsame, ?_⟩
  intro hless
  refine ⟨hbefore, hafter, fun hcascade => hbefore.2 ?_⟩
  rw [hdepth hcascade]
  omega

/-- A type that is saved one below the top level is executed after the first of three types of the
top level. -/
theorem cascade_first_of_top_level :
    ∃ child held, (fourthOpened [] 1).1.window.get? ⟨"d"⟩ = some child ∧
      (fourthOpened [] 1).1.window.get? ⟨"a"⟩ = some held ∧ child.depth = 101 ∧
      ExecutesBefore (lettered []) false (fourthOpened [] 1).1 (fourthOpened [] 1).2
        held child := by
  have hcourse : Course (lettered []) (threeOpened []).1 (.new {}) (threeOpened []).2.1 :=
    .performAll _ _ _ _
  have hknown : (lettered []).registry.contains (insertion "d" 1).root := by
    decide
  have hgroup : ∃ group, (threeOpened []).2.1.window.get? ⟨"a"⟩ = some group ∧
      group.depth ≤ baseDepth + 1 :=
    ⟨_, rfl, by decide⟩
  obtain ⟨group, hgroup, hshallow⟩ := hgroup
  obtain ⟨write, hwrite, hflush⟩ :=
    cascade_first_iff hcourse hknown (by decide) rfl hgroup untouched
  obtain ⟨child, held, hchild, hheld, hdepth, -, horder⟩ :=
    hflush false _ _ (followingFlush_fourthOpened rfl rfl false)
  have htop : write = insertion "a" 0 := Option.some.inj (hwrite.symm.trans rfl)
  subst htop
  exact ⟨child, held, hchild, hheld, hdepth, (horder (by decide)).1.2 hshallow⟩

/-- The last of the three types is deeper, and it is executed after the type one below the top
level. -/
theorem executed_before_top_level :
    (opener (lettered []) ⟨"c"⟩ (threeOpened []).1).map Record.depth = some 0 ∧
      (threeOpened []).2.1.groupDepth? ⟨"d"⟩ = none ∧
      (fourthOpened [] 1).1.groupDepth? ⟨"d"⟩ = some 101 ∧
      (fourthOpened [] 1).1.groupDepth? ⟨"c"⟩ = some 102 ∧
      ((fourthOpened [] 1).1.flush (lettered [])
        (fourthOpened [] 1).2).2.2.store.behind.executed.map Executed.text =
          ["insert into a () values ()", "insert into b () values ()",
            "insert into d () values ()", "insert into c () values ()"] := by
  decide

end Cascade.Coordinator
