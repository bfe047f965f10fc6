import Cascade.Proofs.Line
import Cascade.Proofs.Submissions

/-!
# Tickets

Every request that is submitted gets a ticket with the number of the operation.
The tickets of the requests that wait stand in the line of the coordinator.  In
one operation the first of them are sent and the last of them are lost, and at
most one new ticket comes in: it enters the line, in front of tickets of other
lanes only, or it is sent at once behind all others.
-/

namespace Cascade

/-- The statements that a watched store was asked for, in order. -/
def Watched.statements {σ : Type} (store : Watched σ) : List Statement :=
  store.seen.flatMap (fun sight => sight.call.statements)

/-- What is sent of a request that is executed at once: its statement as it is, under no number. -/
def Request.sentNow (registry : Registry) (request : Request) : List Parcel :=
  match request.bind registry with
  | .ok bound => [⟨none, bound⟩]
  | .error _ => []

namespace Coordinator

variable {σ : Type}

/-! ## What is sent -/

/-- What a stage sends to the store: the parcels of its batch calls, or those of a request that is
executed at once. -/
def Stage.sends [Store σ] (registry : Registry) : Stage σ → List Parcel
  | .flush reset c b =>
      (Stage.attempts registry (.flush reset c b)).flatMap (fun attempt => attempt.group.parcels)
  | .execute request _ _ => request.sentNow registry
  | _ => []

def sends [Store σ] (registry : Registry) (history : List (Stage σ)) : List Parcel :=
  history.flatMap (Stage.sends registry)

section Sends

variable [Store σ] {ctx : Context} {stage : Stage (Watched σ)} {stages : List (Stage (Watched σ))}
  {m next last : Moment (Watched σ)}

theorem statements_executeNow
    (registry : Registry) (fetch : Bool) (request : Request) (b : Backing (Watched σ)) :
    (b.executeNow registry fetch request).2.store.statements =
      b.store.statements ++ (request.sentNow registry).map Parcel.statement := by
  unfold Backing.executeNow Request.execute Request.sentNow
  rcases request.bind registry with e | bound
  · exact (List.append_nil _).symm
  · rcases hcall : Store.execute bound (fetch && bound.isInsert) b.store.behind with
      ⟨e | answer, after⟩
    all_goals
      simp [Store.execute, hcall, Watched.statements, Backing.note, Backing.count,
        Seen.ofAnswer, Call.statements]

/-- The store is asked for what a move sends, and for nothing else. -/
theorem Move.statements (hmove : Move ctx stage m next) (h : m.WellFormed ctx.registry) :
    next.backing.store.statements =
      m.backing.store.statements ++ (stage.sends ctx.registry).map Parcel.statement := by
  cases hmove with
  | flush given reset c b =>
      obtain ⟨n, -, hwell⟩ := h
      simp only [Watched.statements, flushWith_seen ctx reset hwell.sendable,
        List.flatMap_append, Stage.sends, Stage.attempts, List.flatMap_map, List.map_flatMap,
        Attempt.seen, StatementGroup.statements_call]
  | execute given request c b => exact statements_executeNow ctx.registry _ request b
  | number | statement | member | entrant | force | clear | adjust =>
      exact (List.append_nil _).symm

theorem Path.statements (hpath : Path ctx stages m last) (h : m.WellFormed ctx.registry) :
    last.backing.store.statements =
      m.backing.store.statements ++ (sends ctx.registry stages).map Parcel.statement := by
  induction hpath with
  | nil => exact (List.append_nil _).symm
  | cons hmove _ ih =>
      rw [ih (hmove.wellFormed h), hmove.statements h, List.append_assoc, ← List.map_append]
      rfl

end Sends

/-! ## Tickets in the line -/

/-- The ticket of a request, with the parcel that is sent for it. -/
structure Ticket where
  submitted : Nat
  request : Request
  parcel : Parcel

def Ticket.slot (ticket : Ticket) : Slot :=
  ⟨ticket.request.lane, ticket.parcel⟩

/-- Tickets stand in the line of a coordinator. -/
def Stand (registry : Registry) (tickets : List Ticket) (c : Coordinator) : Prop :=
  tickets.map Ticket.slot = c.line registry

theorem Stand.parcels {registry : Registry} {tickets : List Ticket} {c : Coordinator}
    (h : Stand registry tickets c) : tickets.map Ticket.parcel = c.parcels registry := by
  rw [← map_parcel_line, ← h, List.map_map]
  rfl

/-- In some stages the first of the tickets that wait are sent, and the last are lost. -/
structure Departs [Store σ] (registry : Registry) (stages : List (Stage σ))
    (waiting sent remaining lost : List Ticket) : Prop where
  split : waiting = sent ++ (remaining ++ lost)
  sent : sent.map Ticket.parcel = sends registry stages
  lost : (lost.map Ticket.parcel).Perm (dropped registry stages)

/-- Nothing is buffered in a stage or executed on its own. -/
def Stage.Silent : Stage σ → Prop
  | .queue _ _ | .execute _ _ _ => False
  | _ => True

section Departs

variable [Store σ] {ctx : Context} {registry : Registry} {stage : Stage σ}
  {stages others : List (Stage σ)} {m next last : Moment σ}
  {waiting sent middle later remaining lost gone : List Ticket}

theorem Departs.nil (registry : Registry) (waiting : List Ticket) :
    Departs registry ([] : List (Stage σ)) waiting [] waiting [] where
  split := (List.append_nil waiting).symm
  sent := rfl
  lost := List.Perm.refl []

theorem Departs.append
    (h : Departs registry stages waiting sent middle lost)
    (h' : Departs registry others middle later remaining gone) :
    Departs registry (stages ++ others) waiting (sent ++ later) remaining (gone ++ lost) where
  split := by
    rw [h.split, h'.split]
    simp only [List.append_assoc]
  sent := by
    rw [List.map_append, h.sent, h'.sent]
    exact List.flatMap_append.symm
  lost := by
    have hdropped : dropped registry (stages ++ others) =
        dropped registry stages ++ dropped registry others :=
      List.flatMap_append
    rw [List.map_append, hdropped]
    exact (h'.lost.append h.lost).trans List.perm_append_comm

theorem Move.departs
    (hmove : Move ctx stage m next) (h : m.WellFormed ctx.registry) (hsilent : stage.Silent)
    (hstand : Stand ctx.registry waiting m.coordinator) :
    ∃ sent remaining lost, Departs ctx.registry [stage] waiting sent remaining lost ∧
      Stand ctx.registry remaining next.coordinator := by
  have hshifts := hmove.shifts h
  cases hmove with
  | flush given reset c b =>
      obtain ⟨n, -, hwell⟩ := h
      have hparcels := hstand.parcels.trans (attempts_append_dropped hwell.sendable reset b).symm
      obtain ⟨sent, lost, rfl, hsent, hlost⟩ := List.map_eq_append_iff.1 hparcels
      refine ⟨sent, [], lost, ⟨rfl, ?_, ?_⟩, hshifts.symm⟩
      · rw [hsent]
        exact (List.append_nil _).symm
      · rw [hlost]
        exact List.Perm.of_eq (List.append_nil _).symm
  | clear given c b =>
      refine ⟨[], [], waiting, ⟨rfl, rfl, ?_⟩, hshifts.symm⟩
      rw [hstand.parcels]
      exact List.Perm.of_eq (List.append_nil _).symm
  | number | force | adjust =>
      exact ⟨[], waiting, [], ⟨(List.append_nil waiting).symm, rfl, .refl []⟩,
        hstand.trans hshifts.symm⟩
  | statement | member | entrant | execute => exact hsilent.elim

theorem Path.departs
    (hpath : Path ctx stages m last) (h : m.WellFormed ctx.registry)
    (hsilent : ∀ stage ∈ stages, stage.Silent)
    (hstand : Stand ctx.registry waiting m.coordinator) :
    ∃ sent remaining lost, Departs ctx.registry stages waiting sent remaining lost ∧
      Stand ctx.registry remaining last.coordinator := by
  induction hpath generalizing waiting with
  | nil m => exact ⟨[], waiting, [], .nil _ waiting, hstand⟩
  | cons hmove _ ih =>
      obtain ⟨hstage, hrest⟩ := List.forall_mem_cons.1 hsilent
      obtain ⟨sent, middle, lost, hfirst, hmiddle⟩ := hmove.departs h hstage hstand
      obtain ⟨later, remaining, gone, hsecond, hremaining⟩ :=
        ih (hmove.wellFormed h) hrest hmiddle
      exact ⟨sent ++ later, remaining, gone ++ lost, hfirst.append hsecond, hremaining⟩

end Departs

/-! ## A ticket enters -/

theorem Path.of_append [Store σ]
    {ctx : Context} {first second : List (Stage σ)} {m last : Moment σ}
    (h : Path ctx (first ++ second) m last) :
    ∃ middle, Path ctx first m middle ∧ Path ctx second middle last := by
  induction first generalizing m with
  | nil => exact ⟨m, .nil m, h⟩
  | cons stage rest ih =>
      cases h with
      | cons hmove hrest =>
          obtain ⟨middle, hfirst, hsecond⟩ := ih hrest
          exact ⟨middle, .cons hmove hfirst, hsecond⟩

/-- Where one request is accepted, there is one stage in which it is buffered. -/
theorem queue_of_accepted
    {stages : List (Stage σ)} {id : RequestId} {request : Request}
    (h : accepted stages = [(id, request)]) :
    ∃ before after, stages = before ++ .queue id request :: after ∧
      accepted before = [] ∧ accepted after = [] := by
  induction stages with
  | nil => cases h
  | cons stage rest ih =>
      rw [accepted, List.flatMap_cons] at h
      cases stage with
      | queue other held =>
          have hheld : (other, held) = (id, request) ∧ accepted rest = [] := by
            simpa [Stage.accepted, accepted] using h
          obtain ⟨heq, hrest⟩ := hheld
          cases heq
          exact ⟨[], rest, rfl, rfl, hrest⟩
      | flush | number | force | execute | clear | adjust =>
          obtain ⟨before, after, rfl, hbefore, hafter⟩ := ih h
          exact ⟨_ :: before, after, rfl, hbefore, hafter⟩

/-- A stage in which a request could be buffered but is not is silent. -/
theorem silent_of_buffers
    {request : Request} {stages : List (Stage σ)}
    (h : ∀ stage ∈ stages, stage.Buffers request) (hnone : accepted stages = []) :
    ∀ stage ∈ stages, stage.Silent := by
  intro stage hmem
  have hstage : stage.accepted = [] := List.flatMap_eq_nil_iff.1 hnone stage hmem
  cases h stage hmem with
  | queue id => cases hstage
  | flush | number | force => trivial

/-- A ticket enters among those that wait, in front of tickets of other lanes only.  They have been
there since the given coordinator was. -/
structure Ticket.Enters (registry : Registry) (ready : Coordinator) (entry : Ticket)
    (waiting kept lost : List Ticket) : Prop where
  place : ∃ front back, (front ++ back).Sublist waiting ∧ kept.Sublist (front ++ entry :: back) ∧
    ∀ other ∈ back, other.request.lane ≠ entry.request.lane ∧ other.slot ∈ ready.line registry
  whole : (entry :: waiting).Perm (kept ++ lost)

/-- Tickets that have left before an entry change nothing about it. -/
theorem Ticket.Enters.after
    {registry : Registry} {ready : Coordinator} {entry : Ticket}
    {waiting kept lost : List Ticket} (h : entry.Enters registry ready waiting kept lost)
    (first gone : List Ticket) :
    entry.Enters registry ready (first ++ (waiting ++ gone)) (first ++ kept) (lost ++ gone) := by
  obtain ⟨⟨front, back, hwaiting, hkept, hback⟩, hwhole⟩ := h
  refine ⟨⟨first ++ front, back, ?_, ?_, hback⟩, ?_⟩
  · rw [List.append_assoc]
    exact (hwaiting.trans (List.sublist_append_left _ _)).append_left first
  · rw [List.append_assoc]
    exact hkept.append_left first
  · refine List.perm_middle.symm.trans ?_
    rw [← List.cons_append, List.append_assoc first kept, ← List.append_assoc kept]
    exact (hwhole.append_right gone).append_left first

section Enters

variable [Store σ] {ctx : Context} {request : Request} {id : RequestId} {c ready : Coordinator}
  {b : Backing σ} {stages : List (Stage σ)} {m next last : Moment σ}
  {waiting : List Ticket}

theorem Move.enters
    (hmove : Move ctx (.queue id request) m next) (h : m.WellFormed ctx.registry)
    (hstand : Stand ctx.registry waiting m.coordinator) (i : Nat) :
    ∃ parcel front back, request.parcel? ctx.registry id = some parcel ∧
      waiting = front ++ back ∧
      Stand ctx.registry (front ++ ⟨i, request, parcel⟩ :: back) next.coordinator ∧
      ∀ other ∈ back, other.request.lane ≠ request.lane := by
  obtain ⟨parcel, hparcel, ahead, behind, hline, hnext, hlanes⟩ := hmove.shifts h
  obtain ⟨front, back, rfl, rfl, rfl⟩ := List.map_eq_append_iff.1 (hstand.trans hline)
  refine ⟨parcel, front, back, hparcel, rfl, ?_, ?_⟩
  · rw [Stand, hnext, List.map_append, List.map_cons]
    rfl
  · exact fun other hmem => hlanes _ (List.mem_map_of_mem hmem)

/-- In the stages in which one request is buffered, its ticket enters the line. -/
theorem Path.enters
    (hpath : Path ctx stages m last) (h : m.WellFormed ctx.registry)
    (hbuffers : ∀ stage ∈ stages, stage.Buffers request)
    (haccepted : accepted stages = [(id, request)])
    (hstand : Stand ctx.registry waiting m.coordinator) (i : Nat) :
    ∃ parcel sent remaining lost, request.parcel? ctx.registry id = some parcel ∧
      Ticket.Enters ctx.registry m.coordinator ⟨i, request, parcel⟩ waiting (sent ++ remaining)
        lost ∧
      sent.map Ticket.parcel = sends ctx.registry stages ∧
      (lost.map Ticket.parcel).Perm (dropped ctx.registry stages) ∧
      Stand ctx.registry remaining last.coordinator := by
  obtain ⟨before, after, rfl, hbefore, hafter⟩ := queue_of_accepted haccepted
  rw [List.forall_mem_append, List.forall_mem_cons] at hbuffers
  obtain ⟨m', hfirst, hrest⟩ := hpath.of_append
  cases hrest with
  | cons hqueue hsecond =>
      have hwell := (hfirst.keeps Move.wellFormed h).1
      obtain ⟨first, middle, gone, hfirst, hmiddle⟩ :=
        hfirst.departs h (silent_of_buffers hbuffers.1 hbefore) hstand
      obtain ⟨parcel, front, back, hparcel, rfl, hentered, hlanes⟩ :=
        hqueue.enters hwell hmiddle i
      obtain ⟨later, remaining, lost, hsecond, hremaining⟩ :=
        hsecond.departs (hqueue.wellFormed hwell)
          (silent_of_buffers hbuffers.2.2 hafter) hentered
      have hsends : sends ctx.registry (before ++ .queue id request :: after) =
          sends ctx.registry before ++ sends ctx.registry after := by
        simp [sends, Stage.sends]
      have hdropped : dropped ctx.registry (before ++ .queue id request :: after) =
          dropped ctx.registry before ++ dropped ctx.registry after := by
        simp [dropped, Stage.dropped]
      have henters : Ticket.Enters ctx.registry m.coordinator ⟨i, request, parcel⟩ (front ++ back)
          (later ++ remaining) lost := by
        refine ⟨⟨front, back, List.Sublist.refl _, ?_, ?_⟩, ?_⟩
        · rw [hsecond.split, ← List.append_assoc]
          exact List.sublist_append_left _ _
        · intro other hmem
          refine ⟨hlanes other hmem, ?_⟩
          rw [← hstand, hfirst.split]
          exact List.mem_map_of_mem (by simp [hmem])
        · rw [List.append_assoc, ← hsecond.split]
          exact List.perm_middle.symm
      refine ⟨parcel, first ++ later, remaining, lost ++ gone, hparcel, ?_, ?_, ?_, hremaining⟩
      · rw [hfirst.split, List.append_assoc first]
        exact henters.after first gone
      · rw [hsends, List.map_append, hfirst.sent, hsecond.sent]
      · rw [hdropped, List.map_append]
        exact (hsecond.lost.append hfirst.lost).trans List.perm_append_comm

end Enters

end Coordinator

end Cascade
