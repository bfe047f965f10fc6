import Cascade.Proofs.Commit
import Cascade.Proofs.Precedence
import Cascade.Proofs.Squeezing
import Cascade.Proofs.SubmissionOrder
import Cascade.Proofs.Unarmed

/-!
# Batching is transparent

A script saves records and runs statements in one transaction, and it enables
and disables batching wherever it wants to.  Over a store that does not fail it
makes the store execute what it would execute without batching, the writes of
one root type in the same order.

Two invariants carry this, one for the script and one for the script without its
switches.  Both tell what the store has executed from the requests so far, so
the two runs need not be compared step by step.
-/

namespace Cascade

/-- The statement of a request, if its root type is known. -/
def Request.statement? (registry : Registry) (request : Request) : Option Statement :=
  (request.bind registry).toOption

theorem Statement.normal_normal (statement : Statement) :
    statement.normal.normal = statement.normal := by
  simp [Statement.normal]

namespace Coordinator

def Operation.requests : Operation → List Request
  | .submit request _ => [request]
  | _ => []

/-- The request of a ticket, with the number under which it was submitted. -/
def Ticket.call (ticket : Ticket) : Request × Nat :=
  (ticket.request, ticket.submitted)

/-- The parcel of a ticket holds the statement of its request, blanks apart. -/
def Ticket.Faithful (registry : Registry) (ticket : Ticket) : Prop :=
  (ticket.request.statement? registry).map Statement.normal =
    some ticket.parcel.statement.normal

section Tickets

variable {registry : Registry} {ticket : Ticket}

theorem Ticket.Immediate.faithful {σ : Type} {act : Act σ} (h : ticket.Immediate registry act) :
    ticket.Faithful registry := by
  obtain ⟨-, hnow⟩ := h
  unfold Request.sentNow at hnow
  split at hnow
  · next bound hbound =>
    have hparcel : ticket.parcel = ⟨none, bound⟩ := (List.singleton_inj.1 hnow).symm
    simp [Faithful, Request.statement?, hbound, hparcel, Except.toOption]
  · cases hnow

theorem Ticket.Buffered.faithful {σ : Type} {act : Act σ} (h : ticket.Buffered registry act) :
    ticket.Faithful registry := by
  obtain ⟨-, id, -, hparcel⟩ := h
  rcases hrequest : ticket.request with record | statement
  all_goals rw [hrequest] at hparcel
  · obtain ⟨d, hd, hparcel⟩ := Option.map_eq_some_iff.1 hparcel
    simp [Faithful, Request.statement?, Request.bind, Registry.bind, hrequest, hd, ← hparcel,
      Except.toOption, Statement.parcel, Statement.normal_normal]
  · have hparcel : statement.parcel (some id) = ticket.parcel := Option.some.inj hparcel
    simp [Faithful, Request.statement?, Request.bind, hrequest, ← hparcel, Except.toOption,
      Statement.parcel, Statement.normal_normal]

theorem statements_of_faithful
    {tickets : List Ticket} (h : ∀ ticket ∈ tickets, ticket.Faithful registry) :
    tickets.map (fun ticket => ticket.parcel.statement.normal) =
      ((tickets.map Ticket.call).filterMap
        (fun request => request.1.statement? registry)).map Statement.normal := by
  induction tickets with
  | nil => rfl
  | cons ticket rest ih =>
      rw [List.forall_mem_cons] at h
      obtain ⟨bound, hbound, hnormal⟩ := Option.map_eq_some_iff.1 h.1
      simp [ih h.2, Ticket.call, hbound, hnormal]

end Tickets

/-! ## The tickets of a run -/

/-- Where nothing is refused and nothing is lost, the tickets of an operation are those that waited
and those of its requests. -/
theorem Passage.incoming {σ : Type} [Store σ]
    {ctx : Context} {i : Nat} {operation : Operation} {c : Coordinator} {b : Backing σ}
    {waiting sent remaining : List Ticket}
    (h : Passage ctx i operation c b waiting sent remaining [])
    (haccepts : ∀ request batch, operation = .submit request batch →
      ∃ reply, (perform ctx operation c b).1 = .ok reply) :
    ∃ entries : List Ticket, entries.map Ticket.call = operation.requests.zipIdx i ∧
      (∀ entry ∈ entries, entry.Faithful ctx.registry) ∧
      (waiting ++ entries).Perm (sent ++ remaining) := by
  cases h with
  | idle hrefuses hsplit =>
      rw [List.append_nil] at hsplit
      refine ⟨[], ?_, List.forall_mem_nil _, by simp [hsplit]⟩
      cases operation with
      | submit request batch =>
          obtain ⟨reply, hok⟩ := haccepts request batch rfl
          obtain ⟨e, hfail⟩ := hrefuses request batch rfl
          cases hok.symm.trans hfail
      | flush | clear | setBatchSize | setFetchKeys | setFlushOnMixed | takeKeys => rfl
  | @buffer entry _ _ _ hnumber hbuffered henters =>
      refine ⟨[entry], ?_, List.forall_mem_singleton.2 hbuffered.faithful, ?_⟩
      · have hoperation : operation = .submit entry.request true := hbuffered.1
        simp [hoperation, Operation.requests, Ticket.call, hnumber]
      · have hwhole := henters.whole
        rw [List.append_nil] at hwhole
        exact (List.perm_append_singleton entry waiting).trans hwhole
  | @execute entry first _ hnumber himmediate hsplit =>
      refine ⟨[entry], ?_, List.forall_mem_singleton.2 himmediate.faithful, ?_⟩
      · have hoperation : operation = .submit entry.request false := himmediate.1
        simp [hoperation, Operation.requests, Ticket.call, hnumber]
      · rw [hsplit, List.append_nil, List.append_nil]

/-- The store has executed the tickets `sent` after the statements `before`; with those that wait
they are the tickets of the requests so far. -/
structure Tracked (registry : Registry) (before : List Statement) (requests : List Request)
    (sent waiting : List Ticket) (store : Memory) : Prop where
  unarmed : store.failAt = none
  log : store.log.map Statement.normal =
    before ++ sent.map (fun ticket => ticket.parcel.statement.normal)
  faithful : ∀ ticket ∈ sent ++ waiting, ticket.Faithful registry
  whole : ((sent ++ waiting).map Ticket.call).Perm requests.zipIdx
  lanes : (sent ++ waiting).Pairwise LaneOrder

section Tracked

variable {ctx : Context} {registry : Registry} {before : List Statement}
  {requests others : List Request} {sent waiting gone remaining entries : List Ticket}
  {store after : Memory}

theorem Tracked.new (registry : Registry) (h : store.failAt = none) :
    Tracked registry (store.log.map Statement.normal) [] [] [] store where
  unarmed := h
  log := (List.append_nil _).symm
  faithful := List.forall_mem_nil _
  whole := List.Perm.refl []
  lanes := List.Pairwise.nil

theorem Tracked.submitted_lt
    (h : Tracked registry before requests sent waiting store) {ticket : Ticket}
    (hmem : ticket ∈ sent ++ waiting) : ticket.submitted < requests.length := by
  have hcall : ticket.call ∈ requests.zipIdx := h.whole.mem_iff.1 (List.mem_map_of_mem hmem)
  exact (List.mem_zipIdx' hcall).1

theorem Tracked.extend
    (h : Tracked registry before requests sent waiting store)
    (hentries : entries.map Ticket.call = others.zipIdx requests.length)
    (hfaithful : ∀ entry ∈ entries, entry.Faithful registry)
    (hwhole : (waiting ++ entries).Perm (gone ++ remaining))
    (hlanes : (sent ++ (gone ++ remaining)).Pairwise LaneOrder)
    (hlog : after.log = store.log ++ gone.map (fun ticket => ticket.parcel.statement))
    (hunarmed : after.failAt = none) :
    Tracked registry before (requests ++ others) (sent ++ gone) remaining after := by
  have hperm : (sent ++ waiting ++ entries).Perm (sent ++ gone ++ remaining) := by
    rw [List.append_assoc, List.append_assoc]
    exact hwhole.append_left sent
  refine ⟨hunarmed, ?_, ?_, ?_, ?_⟩
  · rw [hlog, List.map_append, h.log, List.map_append, List.map_map, List.append_assoc]
    rfl
  · intro ticket hmem
    rcases List.mem_append.1 (hperm.mem_iff.2 hmem) with hmem | hmem
    · exact h.faithful ticket hmem
    · exact hfaithful ticket hmem
  · refine (hperm.map Ticket.call).symm.trans ?_
    rw [List.map_append, hentries, List.zipIdx_append, Nat.zero_add]
    exact h.whole.append_right _
  · rw [List.append_assoc]
    exact hlanes

theorem Tracked.perform
    {c : Coordinator} {b : Backing Memory} {given : Bool} {operation : Operation}
    (h : Tracked ctx.registry before requests sent waiting b.store)
    (hwell : Moment.WellFormed ctx.registry ⟨given, c, b⟩)
    (hstand : Stand ctx.registry waiting c) (hne : operation ≠ .clear)
    (hknown : ∀ request ∈ operation.requests, request.Known ctx.registry) :
    ∃ gone remaining,
      Tracked ctx.registry before (requests ++ operation.requests) (sent ++ gone) remaining
        (Coordinator.perform ctx operation c b).2.2.store ∧
      Stand ctx.registry remaining (Coordinator.perform ctx operation c b).2.1 := by
  obtain ⟨gone, remaining, lost, hpasses⟩ :=
    exists_passes hwell hstand operation requests.length
  have hrecorded := recorded_perform hwell hne h.unarmed
  have hlost : lost = [] := by
    have hdrops := hpasses.drops
    rw [hrecorded.kept] at hdrops
    exact List.map_eq_nil_iff.1 hdrops.eq_nil
  subst hlost
  have haccepts : ∀ request batch, operation = .submit request batch →
      ∃ reply, (Coordinator.perform ctx operation c b).1 = .ok reply := by
    rintro request batch rfl
    obtain ⟨outcome, hok⟩ := answer_of_unarmed
      (hknown request (List.mem_singleton_self _)) hwell h.unarmed batch
    exact ⟨_, hok⟩
  obtain ⟨entries, hentries, hfaithful, hwhole⟩ := hpasses.passage.incoming haccepts
  have hlanes := hpasses.passage.lanes h.lanes (fun other hmem => h.submitted_lt hmem)
  refine ⟨gone, remaining, h.extend hentries hfaithful hwhole hlanes ?_ hrecorded.unarmed,
    hpasses.stand⟩
  rw [hrecorded.log, ← hpasses.sends, List.map_map]
  rfl

theorem Tracked.execute
    {b : Backing Memory} {request : Request} {bound : Statement}
    (h : Tracked registry before requests sent [] b.store)
    (hbound : request.bind registry = .ok bound) (fetch : Bool) :
    ∃ gone, Tracked registry before (requests ++ [request]) (sent ++ gone) []
      (b.executeNow registry fetch request).2.store := by
  obtain ⟨-, hlog, hafter⟩ := Backing.executeNow_of_unarmed hbound fetch h.unarmed
  have hlanes := h.lanes
  rw [List.append_nil] at hlanes
  have hentry : [(⟨requests.length, request, ⟨none, bound⟩⟩ : Ticket)].map Ticket.call =
      [request].zipIdx requests.length :=
    rfl
  refine ⟨[⟨requests.length, request, ⟨none, bound⟩⟩],
    h.extend hentry ?_ ?_ ?_ hlog hafter⟩
  · refine List.forall_mem_singleton.2 ?_
    simp [Ticket.Faithful, Request.statement?, hbound, Except.toOption]
  · exact List.Perm.refl _
  · rw [List.append_nil, List.pairwise_append]
    refine ⟨hlanes, List.pairwise_singleton _ _, ?_⟩
    intro other hmem entry hentry _
    rw [List.mem_singleton.1 hentry]
    exact h.submitted_lt (List.mem_append_left _ hmem)

end Tracked

end Coordinator

/-! ## Scripts -/

namespace Transaction

open Coordinator (Tracked Stand)

/-- What a script may ask for: writes of records of known root types and statements, steps of a
cascade, flushes, and switches of batching with policies that are valid. -/
def Operation.Scripted (registry : Registry) : Operation → Prop
  | .save record => registry.contains record.root = true
  | .enable policy => ∃ checked, policy.check = .ok checked
  | .disable | .run _ | .runNow _ | .flush | .push | .pop => True
  | .coordinate _ | .takeKeys | .commit | .rollback => False

def Operation.switches : Operation → Bool
  | .enable _ | .disable => true
  | _ => false

/-- The request of an operation at a depth of the cascade. -/
def Operation.requests (depth : Int) : Operation → List Request
  | .save record => [.record (record.withDepth depth)]
  | .run statement | .runNow statement => [.statement statement]
  | _ => []

def Operation.depthAfter (depth : Int) : Operation → Int
  | .push => depth + 1
  | .pop => depth - 1
  | _ => depth

/-- The script without its switches. -/
def unswitched (script : List Operation) : List Operation :=
  script.filter (fun operation => !operation.switches)

/-- The requests of a script that begins at a depth of the cascade, in order. -/
def requests : Int → List Operation → List Request
  | _, [] => []
  | depth, operation :: rest =>
      operation.requests depth ++ requests (operation.depthAfter depth) rest

def enact {σ : Type} [Store σ] (script : List Operation) (now : Transaction × Backing σ) :
    Transaction × Backing σ :=
  script.foldl (fun now operation => (perform operation now.1 now.2).2) now

/-- Perform the operations of a script in a new transaction, and commit it. -/
def conclude {σ : Type} [Store σ] (ctx : Context) (script : List Operation) (b : Backing σ) :
    Transaction × Backing σ :=
  enact (script ++ [.commit]) (.new ctx, b)

theorem requests_unswitched (depth : Int) (script : List Operation) :
    requests depth (unswitched script) = requests depth script := by
  induction script generalizing depth with
  | nil => rfl
  | cons operation rest ih =>
      cases operation with
      | enable | disable => exact ih depth
      | save | run | runNow | flush | coordinate | push | pop | takeKeys | commit | rollback =>
          exact congrArg (_ ++ ·) (ih _)

theorem exists_of_mem_requests
    {depth : Int} {script : List Operation} {request : Request}
    (h : request ∈ requests depth script) :
    ∃ operation depth, operation ∈ script ∧ request ∈ operation.requests depth := by
  induction script generalizing depth with
  | nil => cases h
  | cons operation rest ih =>
      rcases List.mem_append.1 h with h | h
      · exact ⟨operation, depth, List.mem_cons_self, h⟩
      · obtain ⟨other, depth, hmem, hrequest⟩ := ih h
        exact ⟨other, depth, List.mem_cons_of_mem _ hmem, hrequest⟩

section Steps

variable {ctx : Context} {before : List Statement} {others : List Request} {depth : Int}
  {t : Transaction} {b : Backing Memory} {operation : Operation} {script : List Operation}

theorem Operation.Scripted.known
    {registry : Registry} (h : operation.Scripted registry) {request : Request}
    (hmem : request ∈ operation.requests depth) : request.Known registry := by
  cases operation with
  | save record =>
      rw [List.mem_singleton.1 hmem]
      intro root hroot
      cases hroot
      exact h
  | run | runNow =>
      rw [List.mem_singleton.1 hmem]
      exact nofun
  | enable | disable | flush | coordinate | push | pop | takeKeys | commit | rollback => cases hmem

/-! ## Without a coordinator -/

/-- Without a coordinator an operation executes its request at once. -/
theorem perform_of_bare
    (hactive : t.state = .active) (hnone : t.coordinator = none)
    (hscripted : operation.Scripted t.context.registry) (hswitches : operation.switches = false)
    (b : Backing Memory) :
    (perform operation t b).2.1 = { t with depth := operation.depthAfter t.depth } ∧
      ((∃ request bound, operation.requests t.depth = [request] ∧
          request.bind t.context.registry = .ok bound ∧
          (perform operation t b).2.2 = (b.executeNow t.context.registry true request).2) ∨
        operation.requests t.depth = [] ∧ (perform operation t b).2.2 = b) := by
  have hbound : ∀ request, operation.requests t.depth = [request] →
      ∃ bound, request.bind t.context.registry = .ok bound := by
    intro request hrequest
    exact (hscripted.known (hrequest ▸ List.mem_singleton_self request)).exists_bind
  obtain ⟨context, coordinator, depth, state, keys⟩ := t
  cases hactive
  cases hnone
  cases operation with
  | save | run | runNow =>
      obtain ⟨bound, hbound⟩ := hbound _ rfl
      rw [perform, andThen_pure_snd]
      exact ⟨rfl, Or.inl ⟨_, bound, rfl, hbound, rfl⟩⟩
  | flush | push | pop => exact ⟨rfl, Or.inr ⟨rfl, rfl⟩⟩
  | enable | disable => cases hswitches
  | coordinate | takeKeys | commit | rollback => exact hscripted.elim

/-- The invariant of a script without switches: the store has executed the statements of the
requests as they are. -/
structure Unbatched (ctx : Context) (before : List Statement) (others : List Request)
    (depth : Int) (t : Transaction) (b : Backing Memory) : Prop where
  context : t.context = ctx
  active : t.state = .active
  depth : t.depth = depth
  coordinator : t.coordinator = none
  unarmed : b.store.failAt = none
  log : b.store.log = before ++ others.filterMap (Request.statement? ctx.registry)

theorem Unbatched.perform
    (h : Unbatched ctx before others depth t b) (hscripted : operation.Scripted ctx.registry)
    (hswitches : operation.switches = false) :
    Unbatched ctx before (others ++ operation.requests depth) (operation.depthAfter depth)
      (Transaction.perform operation t b).2.1 (Transaction.perform operation t b).2.2 := by
  obtain ⟨rfl, hactive, rfl, hnone, hunarmed, hlog⟩ := h
  obtain ⟨hnext, hafter⟩ := perform_of_bare hactive hnone hscripted hswitches b
  rw [hnext]
  rcases hafter with ⟨request, bound, hrequest, hbound, hafter⟩ | ⟨hrequest, hafter⟩
  · obtain ⟨-, hexecuted, hunarmed⟩ := Backing.executeNow_of_unarmed hbound true hunarmed
    rw [hafter, hrequest]
    refine ⟨rfl, hactive, rfl, hnone, hunarmed, ?_⟩
    rw [hexecuted, hlog]
    simp [Request.statement?, hbound, Except.toOption]
  · rw [hafter, hrequest, List.append_nil]
    exact ⟨rfl, hactive, rfl, hnone, hunarmed, hlog⟩

theorem Unbatched.enact
    (h : Unbatched ctx before others depth t b)
    (hscripted : ∀ operation ∈ script, operation.Scripted ctx.registry)
    (hswitches : ∀ operation ∈ script, operation.switches = false) :
    ∃ last, Unbatched ctx before (others ++ requests depth script) last
      (Transaction.enact script (t, b)).1 (Transaction.enact script (t, b)).2 := by
  induction script generalizing others depth t b with
  | nil =>
      rw [requests, List.append_nil]
      exact ⟨depth, h⟩
  | cons operation rest ih =>
      rw [List.forall_mem_cons] at hscripted hswitches
      have hrest := ih (h.perform hscripted.1 hswitches.1) hscripted.2 hswitches.2
      rw [List.append_assoc] at hrest
      exact hrest

/-! ## With coordinators -/

/-- Tickets wait in the coordinator of a transaction, or none waits. -/
def Attended (registry : Registry) (waiting : List Coordinator.Ticket) :
    Option Coordinator → Prop
  | none => waiting = []
  | some c => Stand registry waiting c ∧ ∃ n, n ≤ c.requests ∧ c.WellFormed registry n

/-- The invariant of a script: the tickets of the requests so far have been executed, or they wait
in the coordinator. -/
structure Batched (ctx : Context) (before : List Statement) (others : List Request)
    (depth : Int) (t : Transaction) (b : Backing Memory) : Prop where
  context : t.context = ctx
  active : t.state = .active
  depth : t.depth = depth
  tracked : ∃ sent waiting, Tracked ctx.registry before others sent waiting b.store ∧
    Attended ctx.registry waiting t.coordinator

theorem Batched.carried
    (h : Batched ctx before others depth t b) {c : Coordinator} (hc : t.coordinator = some c)
    (errand : Coordinator.Operation) (hne : errand ≠ .clear)
    (hknown : ∀ request ∈ errand.requests, request.Known ctx.registry) :
    Batched ctx before (others ++ errand.requests) depth (t.carried errand c b).1
      (t.carried errand c b).2 := by
  obtain ⟨rfl, hactive, rfl, sent, waiting, htracked, hattended⟩ := h
  rw [hc] at hattended
  obtain ⟨hstand, n, hle, hwell⟩ := hattended
  have hmoment : Coordinator.Moment.WellFormed t.context.registry ⟨false, c, b⟩ :=
    ⟨n, ⟨hle, nofun⟩, hwell⟩
  obtain ⟨last, hpath⟩ := Coordinator.path_stages t.context false errand c b
  obtain ⟨k, hk, hafter⟩ := (hpath.keeps Coordinator.Move.wellFormed hmoment).1
  obtain ⟨gone, remaining, hnext, hremaining⟩ := htracked.perform hmoment hstand hne hknown
  exact ⟨rfl, hactive, rfl, sent ++ gone, remaining, hnext, hremaining, k, hk.le, hafter⟩

theorem Batched.retire (h : Batched ctx before others depth t b) :
    (t.retire b).1 = .ok () ∧ (t.retire b).2.1.coordinator = none ∧
      Batched ctx before others depth (t.retire b).2.1 (t.retire b).2.2 := by
  rcases hc : t.coordinator with _ | c
  · rw [retire_of_none hc]
    exact ⟨rfl, hc, h⟩
  · have hflushed := h.carried hc (.flush false) nofun (List.forall_mem_nil _)
    obtain ⟨rfl, hactive, rfl, sent, waiting, htracked, hattended⟩ := h
    rw [hc] at hattended
    obtain ⟨-, n, -, hwell⟩ := hattended
    obtain ⟨⟨totals, hok⟩, -⟩ :=
      Coordinator.flushWith_of_unarmed t.context false hwell.sendable htracked.unarmed
    obtain ⟨hretired, ⟨keys, hnext⟩, hstore⟩ := retire_of_flush hc hok
    obtain ⟨-, -, -, sent, waiting, htracked, hstand, -⟩ := hflushed
    have hnone : waiting = [] := by
      refine List.map_eq_nil_iff.1 (hstand.trans ?_)
      rw [Coordinator.line_eq_nil_iff, Coordinator.coordinator_flush]
      exact Coordinator.parcels_flushWith _ _ false c b
    have hafter : (t.carried (.flush false) c b).2.store = (t.retire b).2.2.store := by
      rw [hstore, Transaction.carried, Coordinator.perform, andThen_pure_snd]
    subst hnone
    simp only [hafter, Coordinator.Operation.requests, List.append_nil] at htracked
    rw [hnext]
    exact ⟨hretired, rfl, rfl, hactive, rfl, sent, [], htracked, rfl⟩

theorem Batched.hire
    (h : Batched ctx before others depth t b) (hnone : t.coordinator = none) (policy : Policy) :
    Batched ctx before others depth { t with coordinator := some (.new policy) } b := by
  obtain ⟨hcontext, hactive, hdepth, sent, waiting, htracked, hattended⟩ := h
  rw [hnone] at hattended
  cases hattended
  exact ⟨hcontext, hactive, hdepth, sent, [], htracked, rfl, 0, Nat.le_refl _,
    .of_nothing rfl rfl⟩

theorem Batched.perform_of_bare
    (h : Batched ctx before others depth t b) (hnone : t.coordinator = none)
    (hscripted : operation.Scripted ctx.registry) (hswitches : operation.switches = false) :
    Batched ctx before (others ++ operation.requests depth) (operation.depthAfter depth)
      (perform operation t b).2.1 (perform operation t b).2.2 := by
  obtain ⟨rfl, hactive, rfl, sent, waiting, htracked, hattended⟩ := h
  rw [hnone] at hattended
  cases hattended
  obtain ⟨hnext, hafter⟩ := Transaction.perform_of_bare hactive hnone hscripted hswitches b
  rw [hnext]
  rcases hafter with ⟨request, bound, hrequest, hbound, hafter⟩ | ⟨hrequest, hafter⟩
  · obtain ⟨gone, hexecuted⟩ := htracked.execute hbound true
    rw [hafter, hrequest]
    refine ⟨rfl, hactive, rfl, sent ++ gone, [], hexecuted, ?_⟩
    rw [hnone]
    rfl
  · rw [hafter, hrequest, List.append_nil]
    refine ⟨rfl, hactive, rfl, sent, [], htracked, ?_⟩
    rw [hnone]
    rfl

theorem Batched.perform_of_owned
    (h : Batched ctx before others depth t b) {c : Coordinator} (hc : t.coordinator = some c)
    (hscripted : operation.Scripted ctx.registry) (hswitches : operation.switches = false) :
    Batched ctx before (others ++ operation.requests depth) (operation.depthAfter depth)
      (perform operation t b).2.1 (perform operation t b).2.2 := by
  obtain rfl := h.depth
  have hlent : ∀ errand, operation.lends = true → t.errand? operation = some errand →
      errand ≠ .clear → errand.requests = operation.requests t.depth →
      Batched ctx before (others ++ operation.requests t.depth) t.depth
        (perform operation t b).2.1 (perform operation t b).2.2 := by
    intro errand hlends herrand hne hrequests
    rw [carried_of_lent h.active hc hlends herrand, ← hrequests]
    exact h.carried hc errand hne (fun request hmem => hscripted.known (hrequests ▸ hmem))
  cases operation with
  | save | run | runNow | flush => exact hlent _ rfl rfl nofun rfl
  | push | pop =>
      obtain ⟨hcontext, hactive, -, htracked⟩ := h
      simp only [Operation.requests, List.append_nil]
      exact ⟨hcontext, hactive, rfl, htracked⟩
  | enable | disable => cases hswitches
  | coordinate | takeKeys | commit | rollback => exact hscripted.elim

/-- A switch of batching executes what waits, and nothing else. -/
theorem Batched.switch
    (h : Batched ctx before others depth t b) (hscripted : operation.Scripted ctx.registry)
    (hswitches : operation.switches = true) :
    Batched ctx before (others ++ operation.requests depth) (operation.depthAfter depth)
      (perform operation t b).2.1 (perform operation t b).2.2 := by
  obtain ⟨hok, hnone, hretired⟩ := h.retire
  have hperform : ∀ errand, operation.retires = true → t.errand? operation = some errand →
      perform operation t b = (t.retire b).andThen
        (fun _ t b => (.ok .done, operation.completed t b)) :=
    fun errand hretires herrand => (perform_of_retired h.active hretires herrand b).2
  rcases hretire : t.retire b with ⟨e | _, next, after⟩
  all_goals rw [hretire] at hok hnone hretired hperform
  · cases hok
  · cases operation with
    | enable policy =>
        obtain ⟨checked, hchecked⟩ := hscripted
        simp only [hperform _ rfl (errand?_of_check hchecked t), Operation.requests,
          List.append_nil]
        exact hretired.hire hnone policy
    | disable =>
        simp only [hperform _ rfl rfl, Operation.requests, List.append_nil]
        exact hretired
    | save | run | runNow | flush | coordinate | push | pop | takeKeys | commit | rollback =>
        cases hswitches

theorem Batched.perform
    (h : Batched ctx before others depth t b) (hscripted : operation.Scripted ctx.registry) :
    Batched ctx before (others ++ operation.requests depth) (operation.depthAfter depth)
      (Transaction.perform operation t b).2.1 (Transaction.perform operation t b).2.2 := by
  rcases hswitches : operation.switches with _ | _
  · rcases hc : t.coordinator with _ | c
    · exact h.perform_of_bare hc hscripted hswitches
    · exact h.perform_of_owned hc hscripted hswitches
  · exact h.switch hscripted hswitches

theorem Batched.enact
    (h : Batched ctx before others depth t b)
    (hscripted : ∀ operation ∈ script, operation.Scripted ctx.registry) :
    ∃ last, Batched ctx before (others ++ requests depth script) last
      (Transaction.enact script (t, b)).1 (Transaction.enact script (t, b)).2 := by
  induction script generalizing others depth t b with
  | nil =>
      rw [requests, List.append_nil]
      exact ⟨depth, h⟩
  | cons operation rest ih =>
      rw [List.forall_mem_cons] at hscripted
      have hrest := ih (h.perform hscripted.1) hscripted.2
      rw [List.append_assoc] at hrest
      exact hrest

end Steps

/-! ## The law -/

/-- How the statements of some requests are executed without batching and with it, after those that
`before` has executed: `moved` lists the requests, each with its number, in the order in which they
are executed with batching. -/
structure Transparent (registry : Registry) (before : Memory) (requests : List Request)
    (moved : List (Request × Nat)) (plain batched : Memory) : Prop where
  /-- Every request has a statement. -/
  bound : ∀ request ∈ requests, ∃ statement, request.bind registry = .ok statement
  /-- Without batching the statements are executed in the order of the requests. -/
  plain : plain.log = before.log ++ requests.filterMap (Request.statement? registry)
  /-- With batching the statements of the same requests are executed, each of them once. -/
  whole : moved.Perm requests.zipIdx
  /-- The writes of one root type keep their order, and the statements of one normal text do. -/
  lanes : moved.Pairwise (fun x y => x.1.lane = y.1.lane → x.2 < y.2)
  batched : batched.log.map Statement.normal = before.log.map Statement.normal ++
    (moved.filterMap (fun request => request.1.statement? registry)).map Statement.normal

/-- The order apart, the same statements are executed with batching as without it. -/
theorem Transparent.perm
    {registry : Registry} {before : Memory} {others : List Request} {moved : List (Request × Nat)}
    {plain batched : Memory} (h : Transparent registry before others moved plain batched) :
    (batched.log.map Statement.normal).Perm (plain.log.map Statement.normal) := by
  have hnumbered : others.filterMap (Request.statement? registry) =
      others.zipIdx.filterMap (fun request => request.1.statement? registry) := by
    conv_lhs => rw [← List.zipIdx_map_fst 0 others, List.filterMap_map]
    rfl
  rw [h.batched, h.plain, List.map_append, hnumbered]
  exact ((h.whole.filterMap _).map _).append_left _

theorem conclude_eq (ctx : Context) (script : List Operation) (b : Backing Memory) :
    conclude ctx script b =
      (perform .commit (enact script (.new ctx, b)).1 (enact script (.new ctx, b)).2).2 := by
  rw [conclude, enact, List.foldl_append]
  rfl

section Law

variable {ctx : Context} {script : List Operation} {b : Backing Memory}

/-- Without its switches a script commits, and executes the statements of its requests in order. -/
theorem conclude_unswitched
    (hscripted : ∀ operation ∈ script, operation.Scripted ctx.registry)
    (hunarmed : b.store.failAt = none) :
    (conclude ctx (unswitched script) b).1.state = .committed ∧
      (conclude ctx (unswitched script) b).2.store.log = b.store.log ++
        (requests 0 script).filterMap (Request.statement? ctx.registry) := by
  have hbare : Unbatched ctx b.store.log [] 0 (.new ctx) b :=
    ⟨rfl, rfl, rfl, rfl, hunarmed, (List.append_nil _).symm⟩
  have hkept : ∀ operation ∈ unswitched script, operation.Scripted ctx.registry :=
    fun operation hmem => hscripted operation (List.mem_filter.1 hmem).1
  have hswitches : ∀ operation ∈ unswitched script, operation.switches = false := by
    intro operation hmem
    simpa using (List.mem_filter.1 hmem).2
  obtain ⟨_, hplain⟩ := hbare.enact hkept hswitches
  have hretire := retire_of_none hplain.coordinator (enact (unswitched script) (.new ctx, b)).2
  obtain ⟨-, hstate, hstore⟩ := commit_of_retired hplain.active (congrArg Prod.fst hretire)
  rw [← conclude_eq] at hstate hstore
  refine ⟨hstate, ?_⟩
  rw [hstore, hretire, hplain.log, requests_unswitched, List.nil_append]

/-- With its switches a script commits, and executes the tickets of its requests. -/
theorem conclude_tracked
    (hscripted : ∀ operation ∈ script, operation.Scripted ctx.registry)
    (hunarmed : b.store.failAt = none) :
    (conclude ctx script b).1.state = .committed ∧
      ∃ sent, Tracked ctx.registry (b.store.log.map Statement.normal) (requests 0 script) sent []
        (conclude ctx script b).2.store := by
  have hnew : Batched ctx (b.store.log.map Statement.normal) [] 0 (.new ctx) b :=
    ⟨rfl, rfl, rfl, [], [], .new _ hunarmed, rfl⟩
  obtain ⟨_, hbatched⟩ := hnew.enact hscripted
  obtain ⟨hok, hnone, hretired⟩ := hbatched.retire
  obtain ⟨-, hstate, hstore⟩ := commit_of_retired hbatched.active hok
  obtain ⟨sent, waiting, htracked, hattended⟩ := hretired.tracked
  rw [hnone] at hattended
  cases hattended
  rw [← conclude_eq] at hstate hstore
  rw [← hstore, List.nil_append] at htracked
  exact ⟨hstate, sent, htracked⟩

/-- Over a store that does not fail, a script commits with the same statements whether or not it
enables batching: the texts in normal form, the log with batching is a permutation of the log
without it that keeps the order of the writes of one root type. -/
theorem batching_is_transparent
    (hscripted : ∀ operation ∈ script, operation.Scripted ctx.registry)
    (hunarmed : b.store.failAt = none) :
    (conclude ctx script b).1.state = .committed ∧
      (conclude ctx (unswitched script) b).1.state = .committed ∧
      ((conclude ctx script b).2.store.log.map Statement.normal).Perm
        ((conclude ctx (unswitched script) b).2.store.log.map Statement.normal) ∧
      ∃ moved, Transparent ctx.registry b.store (requests 0 script) moved
        (conclude ctx (unswitched script) b).2.store (conclude ctx script b).2.store := by
  obtain ⟨hplainstate, hplain⟩ := conclude_unswitched hscripted hunarmed
  obtain ⟨hstate, sent, htracked⟩ := conclude_tracked hscripted hunarmed
  have htransparent : Transparent ctx.registry b.store (requests 0 script)
      (sent.map Coordinator.Ticket.call) (conclude ctx (unswitched script) b).2.store
      (conclude ctx script b).2.store := by
    have hwhole := htracked.whole
    have hlanes := htracked.lanes
    have hfaithful := htracked.faithful
    rw [List.append_nil] at hwhole hlanes hfaithful
    constructor
    case bound =>
      intro request hmem
      obtain ⟨operation, depth, hoperation, hrequest⟩ := exists_of_mem_requests hmem
      exact ((hscripted operation hoperation).known hrequest).exists_bind
    case plain => exact hplain
    case whole => exact hwhole
    case lanes => exact List.pairwise_map.2 hlanes
    case batched =>
      rw [htracked.log, Coordinator.statements_of_faithful hfaithful]
  exact ⟨hstate, hplainstate, htransparent.perm, _, htransparent⟩

end Law

/-- Three statements are run with batching, two of them of one normal text, and a record is saved
below the top level after that. -/
def switching : List Operation :=
  [.enable {}, .run ⟨"x", []⟩, .run ⟨"y", []⟩, .run ⟨" x", [.null]⟩, .disable, .push,
    .save (Coordinator.insertion "a" 0)]

theorem batching_is_transparent_of_switching :
    (∀ operation ∈ switching, operation.Scripted (Coordinator.lettered []).registry) ∧
      (∃ moved, Transparent (Coordinator.lettered []).registry {} (requests 0 switching) moved
        (conclude (Coordinator.lettered []) (unswitched switching) ⟨({} : Memory), {}, []⟩).2.store
        (conclude (Coordinator.lettered []) switching ⟨({} : Memory), {}, []⟩).2.store) ∧
      (conclude (Coordinator.lettered []) (unswitched switching)
        ⟨({} : Memory), {}, []⟩).2.store.log.map Statement.text =
          ["x", "y", " x", "insert into a () values ()"] ∧
      (conclude (Coordinator.lettered []) switching
        ⟨({} : Memory), {}, []⟩).2.store.log.map Statement.text =
          ["x", "x", "y", "insert into a () values ()"] := by
  have hscripted : ∀ operation ∈ switching,
      operation.Scripted (Coordinator.lettered []).registry := by
    intro operation hmem
    simp only [switching, List.mem_cons, List.not_mem_nil, or_false] at hmem
    rcases hmem with rfl | rfl | rfl | rfl | rfl | rfl | rfl
    · exact ⟨{}, rfl⟩
    all_goals trivial
  exact ⟨hscripted, (batching_is_transparent hscripted (b := ⟨{}, {}, []⟩) rfl).2.2.2,
    by decide, by decide⟩

end Transaction

end Cascade
