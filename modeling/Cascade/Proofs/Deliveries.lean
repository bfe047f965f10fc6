import Mathlib.Data.List.Nodup
import Cascade.Proofs.Conservation
import Cascade.Proofs.Passages

/-!
# Deliveries

The annals of a coordinator list what was asked of it from the beginning.  Every
statement that its store has executed in its name is the delivery of a ticket,
and the annals tell for which operation the ticket was given and in which
operation it was delivered.  `Passage.pairwise` is the one place where an order
among tickets is carried through an operation.
-/

namespace Cascade.Coordinator

variable {σ : Type}

/-- The acts of a run of operations from a new coordinator.

Between two operations the backing may change, where `elsewhere` says what may happen to the store,
but no calls are made in the name of the coordinator. -/
inductive Annals [Store σ] (ctx : Context) (elsewhere : σ → σ → Prop) (policy : Policy) :
    List (Act (Watched σ)) → Coordinator → Backing (Watched σ) → Prop
  | new (b : Backing (Watched σ)) : b.store.seen = [] →
      Annals ctx elsewhere policy [] (.new policy) b
  | perform {acts : List (Act (Watched σ))} {c : Coordinator} {b : Backing (Watched σ)}
      (operation : Operation) : Annals ctx elsewhere policy acts c b →
        Annals ctx elsewhere policy (acts ++ [.of ctx operation c b])
          (perform ctx operation c b).2.1 (perform ctx operation c b).2.2
  | change {acts : List (Act (Watched σ))} {c : Coordinator} {b : Backing (Watched σ)}
      (other : Backing (Watched σ)) : Annals ctx elsewhere policy acts c b →
        other.store.seen = b.store.seen → elsewhere b.store.behind other.store.behind →
        Annals ctx elsewhere policy acts c other

theorem Annals.run [Store σ]
    {ctx : Context} {elsewhere : σ → σ → Prop} {policy : Policy}
    {acts : List (Act (Watched σ))} {c : Coordinator} {b : Backing (Watched σ)}
    (h : Annals ctx elsewhere policy acts c b) : Run ctx (acts.flatMap Act.stages) c b := by
  induction h with
  | new b hseen => exact .new policy b hseen
  | perform operation _ ih =>
      rw [List.flatMap_append, List.flatMap_singleton]
      exact .perform operation ih
  | change other _ hseen _ ih => exact .change other ih hseen

theorem Annals.wellFormed [Store σ]
    {ctx : Context} {elsewhere : σ → σ → Prop} {policy : Policy}
    {acts : List (Act (Watched σ))} {c : Coordinator} {b : Backing (Watched σ)}
    (h : Annals ctx elsewhere policy acts c b) :
    ∃ given, Moment.WellFormed ctx.registry ⟨given, c, b⟩ := by
  obtain ⟨given, htally⟩ := h.run.tally
  exact ⟨given, htally.wellFormed⟩

theorem Annals.before [Store σ]
    {ctx : Context} {elsewhere : σ → σ → Prop} {policy : Policy}
    {acts : List (Act (Watched σ))} {c : Coordinator} {b : Backing (Watched σ)}
    (h : Annals ctx elsewhere policy acts c b) {before after : List (Act (Watched σ))}
    {act : Act (Watched σ)} (hacts : acts = before ++ act :: after) :
    ∃ operation d begun, Annals ctx elsewhere policy before d begun ∧
      act = .of ctx operation d begun := by
  induction h generalizing after with
  | new => simp at hacts
  | @perform acts c b operation hrun ih =>
      rcases List.eq_nil_or_concat' after with rfl | ⟨others, last, rfl⟩
      · -- The act is the last one.
        obtain ⟨rfl, hact⟩ := List.append_inj' hacts rfl
        cases hact
        exact ⟨operation, c, b, hrun, rfl⟩
      · rw [← List.cons_append, ← List.append_assoc] at hacts
        exact ih (List.append_inj' hacts rfl).1
  | change _ _ _ _ ih => exact ih hacts

/-- No two requests are buffered under one number. -/
theorem Annals.numbers [Store σ]
    {ctx : Context} {elsewhere : σ → σ → Prop} {policy : Policy}
    {acts : List (Act (Watched σ))} {c : Coordinator} {b : Backing (Watched σ)}
    (h : Annals ctx elsewhere policy acts c b) :
    ((accepted (acts.flatMap Act.stages)).map Prod.fst).Nodup := by
  obtain ⟨given, htally⟩ := h.run.tally
  obtain ⟨n, -, harrived⟩ := htally.numbered
  exact harrived.nodup

def performActs [Store σ] (ctx : Context) :
    List Operation → Coordinator → Backing σ → List (Act σ) × Coordinator × Backing σ
  | [], c, b => ([], c, b)
  | operation :: rest, c, b =>
      let (later, last) :=
        performActs ctx rest (perform ctx operation c b).2.1 (perform ctx operation c b).2.2
      (.of ctx operation c b :: later, last)

theorem operations_performActs [Store σ]
    (ctx : Context) (operations : List Operation) (c : Coordinator) (b : Backing σ) :
    (performActs ctx operations c b).1.map Act.operation = operations := by
  induction operations generalizing c b with
  | nil => rfl
  | cons operation rest ih => exact congrArg (operation :: ·) (ih _ _)

theorem Reachable.performActs [Store σ]
    {ctx : Context} {c : Coordinator} (h : Reachable ctx c) (operations : List Operation)
    (b : Backing σ) : Reachable ctx (Coordinator.performActs ctx operations c b).2.1 := by
  induction operations generalizing c b with
  | nil => exact h
  | cons operation rest ih => exact ih (.step operation b h) _

theorem Annals.performActs [Store σ]
    {ctx : Context} {elsewhere : σ → σ → Prop} {policy : Policy}
    {acts : List (Act (Watched σ))} {c : Coordinator} {b : Backing (Watched σ)}
    (h : Annals ctx elsewhere policy acts c b) (operations : List Operation) :
    Annals ctx elsewhere policy (acts ++ (Coordinator.performActs ctx operations c b).1)
      (Coordinator.performActs ctx operations c b).2.1
      (Coordinator.performActs ctx operations c b).2.2 := by
  induction operations generalizing acts c b with
  | nil =>
      rw [Coordinator.performActs, List.append_nil]
      exact h
  | cons operation rest ih =>
      have hrest := ih (h.perform operation)
      rw [List.append_assoc] at hrest
      exact hrest

/-! ## Deliveries -/

/-- A ticket that was delivered to the store. -/
structure Delivery where
  ticket : Ticket
  /-- The number of the operation in which it was delivered. -/
  during : Nat

/-- What the acts of a run have sent, with their numbers. -/
def sentBy [Store σ] (registry : Registry) (acts : List (Act σ)) : List (Nat × Parcel) :=
  acts.zipIdx.flatMap (fun entry => (sends registry entry.1.stages).map (Prod.mk entry.2))

theorem sentBy_concat [Store σ] (registry : Registry) (acts : List (Act σ)) (act : Act σ) :
    sentBy registry (acts ++ [act]) =
      sentBy registry acts ++ (sends registry act.stages).map (Prod.mk acts.length) := by
  simp [sentBy, List.zipIdx_append]

/-- The deliveries are what a store has executed for the acts of a run, in order, and each is of a
ticket that was given for one of the acts. -/
structure Delivered [Store σ] (registry : Registry) (acts : List (Act (Watched σ)))
    (b : Backing (Watched σ)) (deliveries : List Delivery) : Prop where
  /-- The store has executed the statements of the deliveries, and nothing else. -/
  executed : b.store.statements =
    deliveries.map (fun delivery => delivery.ticket.parcel.statement)
  /-- They were sent in the acts whose numbers they tell. -/
  sent : deliveries.map (fun delivery => (delivery.during, delivery.ticket.parcel)) =
    sentBy registry acts
  /-- Each was submitted in the act whose number its ticket tells: the act has buffered the request
  or executed it at once. -/
  submitted : ∀ delivery ∈ deliveries, ∃ act, acts[delivery.ticket.submitted]? = some act ∧
    (delivery.ticket.Buffered registry act ∨
      delivery.ticket.Immediate registry act ∧ delivery.during = delivery.ticket.submitted)
  once : (deliveries.map (fun delivery => delivery.ticket.submitted)).Nodup

theorem Delivered.during_lt [Store σ]
    {registry : Registry} {acts : List (Act (Watched σ))} {b : Backing (Watched σ)}
    {deliveries : List Delivery} (h : Delivered registry acts b deliveries)
    {delivery : Delivery} (hmem : delivery ∈ deliveries) : delivery.during < acts.length := by
  have hsent : (delivery.during, delivery.ticket.parcel) ∈ sentBy registry acts := by
    rw [← h.sent]
    exact List.mem_map_of_mem hmem
  obtain ⟨⟨act, k⟩, hact, hparcel⟩ := List.mem_flatMap.1 hsent
  obtain ⟨parcel, -, heq⟩ := List.mem_map.1 hparcel
  cases heq
  exact (List.mem_zipIdx' hact).1

/-- The number of a request tells which act has buffered it. -/
theorem eq_of_accepted
    {acts : List (Act σ)} (h : ((accepted (acts.flatMap Act.stages)).map Prod.fst).Nodup)
    {k l : Nat} {first second : Act σ} (hfirst : acts[k]? = some first)
    (hsecond : acts[l]? = some second) {id : RequestId} {request other : Request}
    (hid : accepted first.stages = [(id, request)])
    (hother : accepted second.stages = [(id, other)]) : k = l := by
  have hflat : (accepted (acts.flatMap Act.stages)).map Prod.fst =
      acts.flatMap (fun act => (accepted act.stages).map Prod.fst) := by
    simp only [accepted, List.flatMap_assoc, List.map_flatMap]
  rw [hflat, List.nodup_flatMap] at h
  have hapart := List.pairwise_iff_getElem.1 h.2
  obtain ⟨hk, rfl⟩ := List.getElem?_eq_some_iff.1 hfirst
  obtain ⟨hl, rfl⟩ := List.getElem?_eq_some_iff.1 hsecond
  have hin : ∀ {act : Act σ} {held : Request}, accepted act.stages = [(id, held)] →
      id ∈ (accepted act.stages).map Prod.fst := by
    intro act held hheld
    rw [hheld]
    exact List.mem_singleton_self id
  rcases Nat.lt_trichotomy k l with hlt | heq | hgt
  · exact (hapart k l hk hl hlt (hin hid) (hin hother)).elim
  · exact heq
  · exact (hapart l k hl hk hgt (hin hother) (hin hid)).elim

theorem origin_of_sentNow
    {registry : Registry} {request : Request} {parcel : Parcel}
    (h : request.sentNow registry = [parcel]) : parcel.origin = none := by
  unfold Request.sentNow at h
  split at h
  · cases h
    rfl
  · cases h

/-- There is only one way to say for which acts the deliveries were made. -/
theorem Delivered.unique [Store σ]
    {registry : Registry} {acts : List (Act (Watched σ))} {b : Backing (Watched σ)}
    {deliveries others : List Delivery}
    (hnumbers : ((accepted (acts.flatMap Act.stages)).map Prod.fst).Nodup)
    (h : Delivered registry acts b deliveries) (h' : Delivered registry acts b others) :
    deliveries = others := by
  have hsame : ∀ x ∈ deliveries, ∀ y ∈ others, x.during = y.during →
      x.ticket.parcel = y.ticket.parcel → x = y := by
    rintro ⟨⟨k, request, parcel⟩, during⟩ hmem ⟨⟨l, other, _⟩, _⟩ hmem' rfl rfl
    obtain ⟨first, hfirst, hx⟩ := h.submitted _ hmem
    obtain ⟨second, hsecond, hy⟩ := h'.submitted _ hmem'
    clear hmem hmem'
    simp only at hfirst hsecond hx hy
    rcases hx with ⟨-, id, hid, hparcel⟩ | ⟨⟨hoperation, hnow⟩, rfl⟩
    · rcases hy with ⟨-, last, hlast, hparcel'⟩ | ⟨⟨-, hnow⟩, -⟩
      · have hsome := (origin_of_parcel? hparcel).symm.trans (origin_of_parcel? hparcel')
        cases hsome
        have hnumber := eq_of_accepted hnumbers hfirst hsecond hid hlast
        subst hnumber
        cases hfirst.symm.trans hsecond
        cases hid.symm.trans hlast
        rfl
      · cases (origin_of_parcel? hparcel).symm.trans (origin_of_sentNow hnow)
    · rcases hy with ⟨-, last, -, hparcel⟩ | ⟨⟨hother, -⟩, rfl⟩
      · cases (origin_of_parcel? hparcel).symm.trans (origin_of_sentNow hnow)
      · cases hfirst.symm.trans hsecond
        cases hoperation.symm.trans hother
        rfl
  have hboth := h.sent.trans h'.sent.symm
  have hlength : deliveries.length = others.length := by
    simpa using congrArg List.length hboth
  apply List.ext_getElem hlength
  intro j hj hj'
  have hpair := congrArg (fun pairs => pairs[j]?) hboth
  simp only [List.getElem?_map, List.getElem?_eq_getElem hj, List.getElem?_eq_getElem hj',
    Option.map_some, Option.some.injEq, Prod.mk.injEq] at hpair
  exact hsame _ (List.getElem_mem hj) _ (List.getElem_mem hj') hpair.1 hpair.2

/-- The tickets that have been given and not been lost: those of deliveries, then those that
wait. -/
def ticketsOf (deliveries : List Delivery) (waiting : List Ticket) : List Ticket :=
  deliveries.map Delivery.ticket ++ waiting

/-- The deliveries of a run and the tickets that wait after it. -/
structure Standing [Store σ] (registry : Registry) (acts : List (Act (Watched σ)))
    (deliveries : List Delivery) (waiting : List Ticket) (c : Coordinator)
    (b : Backing (Watched σ)) : Prop where
  delivered : Delivered registry acts b deliveries
  stand : Stand registry waiting c
  waits : ∀ ticket ∈ waiting, ∃ act, acts[ticket.submitted]? = some act ∧
    ticket.Buffered registry act
  distinct : (ticketsOf deliveries waiting).Pairwise (fun x y => x.submitted ≠ y.submitted)

/-! ## Tickets through an operation -/

theorem ticketsOf_append (deliveries : List Delivery) (sent remaining : List Ticket) (i : Nat) :
    ticketsOf (deliveries ++ sent.map (Delivery.mk · i)) remaining =
      deliveries.map Delivery.ticket ++ (sent ++ remaining) := by
  simp [ticketsOf, Function.comp_def]

theorem pairwise_insert {α : Type} {R : α → α → Prop} {front back : List α} {entry : α}
    (h : (front ++ back).Pairwise R) (hfront : ∀ other ∈ front, R other entry)
    (hback : ∀ other ∈ back, R entry other) : (front ++ entry :: back).Pairwise R := by
  rw [List.pairwise_append] at h ⊢
  refine ⟨h.1, List.pairwise_cons.2 ⟨hback, h.2.1⟩, ?_⟩
  intro other hmem later hlater
  rcases List.mem_cons.1 hlater with rfl | hlater
  · exact hfront other hmem
  · exact h.2.2 other hmem later hlater

namespace Passage

variable [Store σ] {ctx : Context} {i : Nat} {operation : Operation} {c : Coordinator}
  {b : Backing σ} {waiting sent remaining lost : List Ticket}

theorem of_mem_sent
    (h : Passage ctx i operation c b waiting sent remaining lost) {ticket : Ticket}
    (hmem : ticket ∈ sent) :
    ticket ∈ waiting ∨ ticket.submitted = i ∧
      (ticket.Buffered ctx.registry (.of ctx operation c b) ∨
        ticket.Immediate ctx.registry (.of ctx operation c b)) := by
  cases h with
  | idle _ hsplit =>
      rw [hsplit]
      exact Or.inl (List.mem_append_left _ hmem)
  | buffer hsubmitted hbuffered henters =>
      have hin := henters.whole.mem_iff.2 (List.mem_append_left _ (List.mem_append_left _ hmem))
      rcases List.mem_cons.1 hin with rfl | hin
      · exact Or.inr ⟨hsubmitted, Or.inl hbuffered⟩
      · exact Or.inl hin
  | execute hsubmitted himmediate hsplit =>
      rcases List.mem_append.1 hmem with hmem | hmem
      · rw [hsplit]
        exact Or.inl (List.mem_append_left _ hmem)
      · rw [List.mem_singleton.1 hmem]
        exact Or.inr ⟨hsubmitted, Or.inr himmediate⟩

theorem of_mem_remaining
    (h : Passage ctx i operation c b waiting sent remaining lost) {ticket : Ticket}
    (hmem : ticket ∈ remaining) :
    ticket ∈ waiting ∨ ticket.submitted = i ∧
      ticket.Buffered ctx.registry (.of ctx operation c b) := by
  cases h with
  | idle _ hsplit =>
      rw [hsplit]
      exact Or.inl (List.mem_append_right _ (List.mem_append_left _ hmem))
  | buffer hsubmitted hbuffered henters =>
      have hin := henters.whole.mem_iff.2 (List.mem_append_left _ (List.mem_append_right _ hmem))
      rcases List.mem_cons.1 hin with rfl | hin
      · exact Or.inr ⟨hsubmitted, hbuffered⟩
      · exact Or.inl hin
  | execute => cases hmem

/-- An order among tickets is kept if a new one may stand behind all others, and in front of those
of other lanes that have been in the line since the request was about to be buffered. -/
theorem pairwise
    (h : Passage ctx i operation c b waiting sent remaining lost) {R : Ticket → Ticket → Prop}
    {delivered : List Ticket} (hordered : (delivered ++ waiting).Pairwise R)
    (hbehind : ∀ other ∈ delivered ++ waiting, ∀ entry : Ticket, entry.submitted = i →
      R other entry)
    (hahead : ∀ entry : Ticket, entry.submitted = i →
      entry.Buffered ctx.registry (.of ctx operation c b) →
      ∀ other ∈ waiting, other.request.lane ≠ entry.request.lane →
        other.slot ∈ (c.readied ctx entry.request b).line ctx.registry → R entry other) :
    (delivered ++ (sent ++ remaining)).Pairwise R := by
  cases h with
  | idle _ hsplit =>
      rw [hsplit, ← List.append_assoc sent] at hordered
      exact hordered.sublist ((List.sublist_append_left _ _).append_left delivered)
  | @buffer entry _ _ _ hsubmitted hbuffered henters =>
      obtain ⟨front, back, hwaiting, hkept, hback⟩ := henters.place
      have hsub : (delivered ++ (front ++ back)).Sublist (delivered ++ waiting) :=
        hwaiting.append_left delivered
      have hinserted : (delivered ++ front ++ entry :: back).Pairwise R := by
        apply pairwise_insert
        · rw [List.append_assoc]
          exact hordered.sublist hsub
        · intro other hmem
          refine hbehind other (hsub.subset ?_) entry hsubmitted
          rw [← List.append_assoc]
          exact List.mem_append_left _ hmem
        · intro other hmem
          obtain ⟨hlane, hslot⟩ := hback other hmem
          exact hahead entry hsubmitted hbuffered other
            (hwaiting.subset (List.mem_append_right _ hmem)) hlane hslot
      rw [List.append_assoc] at hinserted
      exact hinserted.sublist (hkept.append_left delivered)
  | @execute entry first lost hsubmitted _ hsplit =>
      have hsub : (delivered ++ first).Sublist (delivered ++ waiting) := by
        rw [hsplit]
        exact (List.sublist_append_left _ _).append_left delivered
      rw [List.append_nil, ← List.append_assoc]
      apply pairwise_insert
      · rw [List.append_nil]
        exact hordered.sublist hsub
      · exact fun other hmem => hbehind other (hsub.subset hmem) entry hsubmitted
      · exact List.forall_mem_nil _

end Passage

namespace Standing

variable [Store σ] {ctx : Context} {registry : Registry} {acts : List (Act (Watched σ))}
  {deliveries : List Delivery} {waiting sent remaining lost : List Ticket} {c : Coordinator}
  {b : Backing (Watched σ)} {operation : Operation}

theorem new (registry : Registry) (policy : Policy) {b : Backing (Watched σ)}
    (hseen : b.store.seen = []) : Standing registry [] [] [] (.new policy) b where
  delivered := ⟨by simp [Watched.statements, hseen], rfl, List.forall_mem_nil _, List.Pairwise.nil⟩
  stand := rfl
  waits := List.forall_mem_nil _
  distinct := List.Pairwise.nil

theorem change (h : Standing registry acts deliveries waiting c b) {other : Backing (Watched σ)}
    (hseen : other.store.seen = b.store.seen) :
    Standing registry acts deliveries waiting c other where
  delivered := by
    have hsame : other.store.statements = b.store.statements := by
      rw [Watched.statements, hseen, Watched.statements]
    exact ⟨hsame.trans h.delivered.executed, h.delivered.sent, h.delivered.submitted,
      h.delivered.once⟩
  stand := h.stand
  waits := h.waits
  distinct := h.distinct

theorem submitted_lt (h : Standing registry acts deliveries waiting c b) {ticket : Ticket}
    (hmem : ticket ∈ ticketsOf deliveries waiting) : ticket.submitted < acts.length := by
  have hact : ∃ act, acts[ticket.submitted]? = some act := by
    rcases List.mem_append.1 hmem with hmem | hmem
    · obtain ⟨delivery, hdelivery, rfl⟩ := List.mem_map.1 hmem
      obtain ⟨act, hact, -⟩ := h.delivered.submitted delivery hdelivery
      exact ⟨act, hact⟩
    · obtain ⟨act, hact, -⟩ := h.waits ticket hmem
      exact ⟨act, hact⟩
  obtain ⟨act, hact⟩ := hact
  exact (List.getElem?_eq_some_iff.1 hact).1

theorem perform
    (h : Standing ctx.registry acts deliveries waiting c b) {given : Bool}
    (hwell : Moment.WellFormed ctx.registry ⟨given, c, b⟩)
    (hpasses : Passes ctx acts.length operation c b waiting sent remaining lost) :
    Standing ctx.registry (acts ++ [.of ctx operation c b])
      (deliveries ++ sent.map (Delivery.mk · acts.length)) remaining
      (Coordinator.perform ctx operation c b).2.1 (Coordinator.perform ctx operation c b).2.2 := by
  have hdistinct : (ticketsOf (deliveries ++ sent.map (Delivery.mk · acts.length))
      remaining).Pairwise (fun x y => x.submitted ≠ y.submitted) := by
    rw [ticketsOf_append]
    apply hpasses.passage.pairwise h.distinct
    · intro other hmem entry hentry
      rw [hentry]
      exact Nat.ne_of_lt (h.submitted_lt hmem)
    · intro entry hentry _ other hmem _ _
      rw [hentry]
      exact Nat.ne_of_gt (h.submitted_lt (List.mem_append_right _ hmem))
  have hearlier : ∀ {k : Nat} {act : Act (Watched σ)}, acts[k]? = some act →
      (acts ++ [.of ctx operation c b])[k]? = some act := by
    intro k act hact
    rw [List.getElem?_append_left (List.getElem?_eq_some_iff.1 hact).1]
    exact hact
  have hpresent : (acts ++ [.of ctx operation c b])[acts.length]? =
      some (.of ctx operation c b) :=
    List.getElem?_concat_length
  obtain ⟨last, hpath⟩ := path_stages ctx given operation c b
  refine ⟨⟨?_, ?_, ?_, ?_⟩, hpasses.stand, ?_, hdistinct⟩
  · rw [hpath.statements hwell, h.delivered.executed, ← hpasses.sends]
    simp [Function.comp_def]
  · rw [sentBy_concat, List.map_append, h.delivered.sent]
    congr 1
    have hsends := congrArg (List.map (Prod.mk acts.length)) hpasses.sends
    simpa [Function.comp_def, Act.of] using hsends
  · intro delivery hmem
    rcases List.mem_append.1 hmem with hmem | hmem
    · obtain ⟨act, hact, hsubmitted⟩ := h.delivered.submitted delivery hmem
      exact ⟨act, hearlier hact, hsubmitted⟩
    · obtain ⟨ticket, hticket, rfl⟩ := List.mem_map.1 hmem
      rcases hpasses.passage.of_mem_sent hticket with hwaited | ⟨hnumber, hsubmitted⟩
      · obtain ⟨act, hact, hbuffered⟩ := h.waits ticket hwaited
        exact ⟨act, hearlier hact, Or.inl hbuffered⟩
      · refine ⟨_, hnumber ▸ hpresent, ?_⟩
        exact hsubmitted.imp_right (fun himmediate => ⟨himmediate, hnumber.symm⟩)
  · have hnodup := List.pairwise_map.2 (hdistinct.sublist (List.sublist_append_left _ _))
    simpa [List.Nodup, Function.comp_def] using hnodup
  · intro ticket hmem
    rcases hpasses.passage.of_mem_remaining hmem with hwaited | ⟨hnumber, hbuffered⟩
    · obtain ⟨act, hact, hbuffered⟩ := h.waits ticket hwaited
      exact ⟨act, hearlier hact, hbuffered⟩
    · exact ⟨_, hnumber ▸ hpresent, hbuffered⟩

end Standing

end Cascade.Coordinator
