import Cascade.Proofs.Deliveries
import Cascade.Proofs.Tenure

/-!
# Submission order

However the calls of a flush are grouped, the record writes of one root type are
executed in the order in which they were submitted, and so are the statements of
one normal text.  A flush, and a request that is executed at once, leave nothing
behind that was submitted before them.
-/

namespace Cascade.Coordinator

variable {σ : Type}

/-- Nothing waits after an act: it is a flush, or its request is executed at once and not refused
for its root type. -/
def Act.Settles (act : Act σ) : Prop :=
  match act.operation with
  | .flush _ => True
  | .submit _ batch => batch = false ∧ ∀ root, act.answer ≠ .error (.unknownRoot root)
  | _ => False

section Settling

variable [Store σ] {ctx : Context} {operation : Operation} {c : Coordinator} {b : Backing σ}

theorem coordinator_flush (reset : Bool) (c : Coordinator) (b : Backing σ) :
    (perform ctx (.flush reset) c b).2.1 = (c.flushWith ctx reset b).2.1 := by
  rw [perform]
  rcases c.flushWith ctx reset b with ⟨e | totals, after⟩ <;> rfl

/-- A request that is executed at once leaves the coordinator as the flush before it does. -/
theorem coordinator_submit_now
    {request : Request} (h : request.Known ctx.registry) (c : Coordinator) (b : Backing σ) :
    (perform ctx (.submit request false) c b).2.1 = (c.flushWith ctx false b).2.1 := by
  have hflush := traceFlushIf_coordinator ctx true c b
  rw [perform_submit, traceSubmit_of_known h]
  simp only [Bool.not_false, Bool.true_or, Bool.false_eq_true, if_false, if_true] at hflush ⊢
  rw [← hflush]
  rcases traceFlushIf ctx true c b with ⟨flushes, e | _, c', b'⟩ <;> rfl

theorem Act.Settles.line_eq_nil (h : (Act.of ctx operation c b).Settles) :
    (perform ctx operation c b).2.1.line ctx.registry = [] := by
  rw [line_eq_nil_iff]
  cases operation with
  | flush reset =>
      rw [coordinator_flush]
      exact parcels_flushWith ctx.registry ctx reset c b
  | submit request batch =>
      obtain ⟨hbatch, hanswer⟩ := h
      subst hbatch
      by_cases hknown : request.Known ctx.registry
      · rw [coordinator_submit_now hknown]
        exact parcels_flushWith ctx.registry ctx false c b
      · obtain ⟨root, hrefused⟩ := perform_submit_of_unknown hknown false c b
        exact absurd (congrArg Prod.fst hrefused) (hanswer root)
  | clear | setBatchSize | setFetchKeys | setFlushOnMixed | takeKeys => exact h.elim

end Settling

/-! ## What was submitted before an act, and what was not -/

/-- Deliveries that were submitted before the `k`th act come first, in this act at the latest, and
nothing that waits was submitted before it. -/
def Split (k : Nat) (deliveries : List Delivery) (waiting : List Ticket) : Prop :=
  ∃ early late, deliveries = early ++ late ∧
    (∀ delivery ∈ early, delivery.ticket.submitted < k ∧ delivery.during ≤ k) ∧
    (∀ delivery ∈ late, k ≤ delivery.ticket.submitted) ∧
    ∀ ticket ∈ waiting, k ≤ ticket.submitted

section Split

variable [Store σ] {ctx : Context} {acts : List (Act (Watched σ))} {deliveries : List Delivery}
  {waiting sent remaining lost : List Ticket} {c : Coordinator} {b : Backing (Watched σ)}
  {operation : Operation}

/-- Later operations do not change what was submitted before an act. -/
theorem Split.perform
    {k : Nat} (h : Split k deliveries waiting) (hlt : k < acts.length)
    (hpassage : Passage ctx acts.length operation c b waiting sent remaining lost) :
    Split k (deliveries ++ sent.map (Delivery.mk · acts.length)) remaining := by
  obtain ⟨early, late, hsplit, hearly, hlate, hwaits⟩ := h
  refine ⟨early, late ++ sent.map (Delivery.mk · acts.length), ?_, hearly, ?_, ?_⟩
  · rw [hsplit, List.append_assoc]
  · intro delivery hmem
    rcases List.mem_append.1 hmem with hmem | hmem
    · exact hlate delivery hmem
    · obtain ⟨ticket, hticket, rfl⟩ := List.mem_map.1 hmem
      rcases hpassage.of_mem_sent hticket with hwaited | ⟨hnumber, -⟩
      · exact hwaits ticket hwaited
      · exact Nat.le_trans (Nat.le_of_lt hlt) (Nat.le_of_eq hnumber.symm)
  · intro ticket hmem
    rcases hpassage.of_mem_remaining hmem with hwaited | ⟨hnumber, -⟩
    · exact hwaits ticket hwaited
    · exact Nat.le_trans (Nat.le_of_lt hlt) (Nat.le_of_eq hnumber.symm)

/-- An act after which nothing waits sends all that was submitted before it, and after that at
most its own request. -/
theorem Standing.split
    (h : Standing ctx.registry acts deliveries waiting c b)
    (hpassage : Passage ctx acts.length operation c b waiting sent [] lost)
    (hsettles : (Act.of ctx operation c b).Settles) :
    Split acts.length (deliveries ++ sent.map (Delivery.mk · acts.length)) [] := by
  have hbefore : ∀ moved : List Ticket, (∀ ticket ∈ moved, ticket ∈ waiting) →
      ∀ delivery ∈ deliveries ++ moved.map (Delivery.mk · acts.length),
        delivery.ticket.submitted < acts.length ∧ delivery.during ≤ acts.length := by
    intro moved hmoved delivery hmem
    rcases List.mem_append.1 hmem with hmem | hmem
    · refine ⟨h.submitted_lt (List.mem_append_left _ (List.mem_map_of_mem hmem)), ?_⟩
      exact Nat.le_of_lt (h.delivered.during_lt hmem)
    · obtain ⟨ticket, hticket, rfl⟩ := List.mem_map.1 hmem
      exact ⟨h.submitted_lt (List.mem_append_right _ (hmoved ticket hticket)), Nat.le_refl _⟩
  cases hpassage with
  | idle _ hsplit =>
      refine ⟨_, [], (List.append_nil _).symm, hbefore sent ?_, List.forall_mem_nil _,
        List.forall_mem_nil _⟩
      intro ticket hmem
      rw [hsplit]
      exact List.mem_append_left _ hmem
  | buffer _ hbuffered _ =>
      obtain ⟨hoperation, -⟩ := hbuffered
      rw [Act.Settles, hoperation] at hsettles
      cases hsettles.1
  | @execute entry first _ hnumber _ hsplit =>
      refine ⟨deliveries ++ first.map (Delivery.mk · acts.length), [⟨entry, acts.length⟩], by simp,
        hbefore first ?_, ?_, List.forall_mem_nil _⟩
      · intro ticket hmem
        rw [hsplit]
        exact List.mem_append_left _ hmem
      · exact List.forall_mem_singleton.2 (Nat.le_of_eq hnumber.symm)

end Split

/-! ## The order of a run -/

/-- Deliveries are in submission order: those of one lane, and all of them across an act after
which nothing waits. -/
structure InSubmissionOrder (acts : List (Act σ)) (deliveries : List Delivery) : Prop where
  /-- Writes of one root type, and statements of one normal text, are executed in the order in
  which they were submitted. -/
  lanes : deliveries.Pairwise (fun x y => x.ticket.request.lane = y.ticket.request.lane →
    x.ticket.submitted < y.ticket.submitted)
  /-- What was submitted before a flush, or before a request that is executed at once, is executed
  in this act at the latest, before the request and before everything submitted after it. -/
  settled : ∀ k act, acts[k]? = some act → act.Settles → ∃ early late,
    deliveries = early ++ late ∧
    (∀ delivery ∈ early, delivery.ticket.submitted < k ∧ delivery.during ≤ k) ∧
    ∀ delivery ∈ late, k ≤ delivery.ticket.submitted

/-- The order of two tickets that a lane keeps. -/
def LaneOrder (x y : Ticket) : Prop :=
  x.request.lane = y.request.lane → x.submitted < y.submitted

/-- A new ticket stands in front of tickets of other lanes only, so lanes keep their order. -/
theorem Passage.lanes [Store σ]
    {ctx : Context} {i : Nat} {operation : Operation} {c : Coordinator} {b : Backing σ}
    {delivered waiting sent remaining lost : List Ticket}
    (h : Passage ctx i operation c b waiting sent remaining lost)
    (hordered : (delivered ++ waiting).Pairwise LaneOrder)
    (hlt : ∀ other ∈ delivered ++ waiting, other.submitted < i) :
    (delivered ++ (sent ++ remaining)).Pairwise LaneOrder := by
  apply h.pairwise hordered
  · intro other hmem entry hentry _
    rw [hentry]
    exact hlt other hmem
  · exact fun entry _ _ other _ hlane _ hsame => absurd hsame.symm hlane

section Runs

variable [Store σ] {ctx : Context} {elsewhere : σ → σ → Prop} {policy : Policy}
  {acts : List (Act (Watched σ))} {c : Coordinator} {b : Backing (Watched σ)}

/-- The invariant of a run: the deliveries with the tickets that wait behind them keep their lanes,
and they are split at every act after which nothing waited. -/
theorem Annals.standing (h : Annals ctx elsewhere policy acts c b) :
    ∃ deliveries waiting, Standing ctx.registry acts deliveries waiting c b ∧
      (ticketsOf deliveries waiting).Pairwise LaneOrder ∧
      ∀ k act, acts[k]? = some act → act.Settles → Split k deliveries waiting := by
  induction h with
  | new b hseen => exact ⟨[], [], .new ctx.registry policy hseen, List.Pairwise.nil, nofun⟩
  | @perform acts c b operation hrun ih =>
      obtain ⟨deliveries, waiting, hstanding, hlanes, hsplits⟩ := ih
      obtain ⟨given, hwell⟩ := hrun.wellFormed
      obtain ⟨sent, remaining, lost, hpasses⟩ :=
        exists_passes hwell hstanding.stand operation acts.length
      refine ⟨_, remaining, hstanding.perform hwell hpasses, ?_, ?_⟩
      · rw [ticketsOf_append]
        exact hpasses.passage.lanes hlanes (fun other hmem => hstanding.submitted_lt hmem)
      · intro k act hact hsettles
        rcases Nat.lt_or_ge k acts.length with hlt | hge
        · rw [List.getElem?_append_left hlt] at hact
          exact (hsplits k act hact hsettles).perform hlt hpasses.passage
        · have hk : k = acts.length := by
            have hbound := (List.getElem?_eq_some_iff.1 hact).1
            rw [List.length_append, List.length_singleton] at hbound
            omega
          subst hk
          rw [List.getElem?_concat_length] at hact
          cases hact
          have hnone : remaining = [] :=
            List.map_eq_nil_iff.1 (hpasses.stand.trans hsettles.line_eq_nil)
          subst hnone
          exact hstanding.split hpasses.passage hsettles
  | change other _ hseen _ ih =>
      obtain ⟨deliveries, waiting, hstanding, hrest⟩ := ih
      exact ⟨deliveries, waiting, hstanding.change hseen, hrest⟩

/-- What reaches the store in a run is executed in submission order. -/
theorem executed_in_submission_order (h : Annals ctx elsewhere policy acts c b) :
    (∃ deliveries, Delivered ctx.registry acts b deliveries) ∧
      ∀ deliveries, Delivered ctx.registry acts b deliveries →
        InSubmissionOrder acts deliveries := by
  obtain ⟨deliveries, waiting, hstanding, hlanes, hsplits⟩ := h.standing
  refine ⟨⟨deliveries, hstanding.delivered⟩, ?_⟩
  intro others hothers
  cases hothers.unique h.numbers hstanding.delivered
  constructor
  case lanes =>
    have hdelivered := hlanes.sublist (List.sublist_append_left _ _)
    exact List.pairwise_map.1 hdelivered
  case settled =>
    intro k act hact hsettles
    obtain ⟨early, late, hsplit, hearly, hlate, -⟩ := hsplits k act hact hsettles
    exact ⟨early, late, hsplit, hearly, hlate⟩

end Runs

/-- Statements of two texts wait until one is executed at once.  Writes of two types are flushed
then, later ones are flushed over a store that refuses the last of them, and another one is flushed
because a statement follows it. -/
def regrouping : List Operation :=
  [.submit (.statement ⟨"x", [.null]⟩) true, .submit (.statement ⟨"y", []⟩) true,
    .submit (.statement ⟨"x", []⟩) true, .submit (.statement ⟨"x", [.null]⟩) false,
    .submit (.record ((insertion "b" 0).withId (.ofNat 1))) true,
    .submit (.record (insertion "a" (-1))) true,
    .submit (.record ((insertion "b" 0).withId (.ofNat 2))) true, .flush false,
    .submit (.record ((insertion "b" 0).withId (.ofNat 3))) true,
    .submit (.record (insertion "c" 0)) true, .flush true,
    .submit (.record ((insertion "b" 0).withId (.ofNat 4))) true,
    .submit (.statement ⟨"y", [.null]⟩) true]

def regrouped : List (Act (Watched Memory)) × Coordinator × Backing (Watched Memory) :=
  performActs (lettered []) regrouping (.new {}) ⟨⟨[], { failAt := some 9 }⟩, {}, []⟩

theorem executed_in_submission_order_of_regrouped :
    ((∃ deliveries, Delivered (lettered []).registry regrouped.1 regrouped.2.2 deliveries) ∧
      ∀ deliveries, Delivered (lettered []).registry regrouped.1 regrouped.2.2 deliveries →
        InSubmissionOrder regrouped.1 deliveries) ∧
      regrouped.2.2.store.behind.executed.map (fun entry => (entry.text, entry.params)) =
        [("x", [.null]), ("x", []), ("y", []), ("x", [.null]),
          ("insert into a () values ()", []), ("insert into b (id) values (?)", [.ofNat 1]),
          ("insert into b (id) values (?)", [.ofNat 2]),
          ("insert into b (id) values (?)", [.ofNat 3]),
          ("insert into b (id) values (?)", [.ofNat 4])] ∧
      regrouped.2.2.metrics.flushFailures = 1 := by
  have hnew : Annals (lettered []) (fun _ _ => False) {} [] (.new {})
      (⟨⟨[], { failAt := some 9 }⟩, {}, []⟩ : Backing (Watched Memory)) :=
    .new _ rfl
  have hannals : Annals (lettered []) (fun _ _ => False) {} regrouped.1 regrouped.2.1
      regrouped.2.2 :=
    hnew.performActs regrouping
  exact ⟨executed_in_submission_order hannals, by decide +kernel, by decide +kernel⟩

end Cascade.Coordinator
