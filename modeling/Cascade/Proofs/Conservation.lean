import Cascade.Proofs.Ledger
import Cascade.Store.Memory

/-!
# Exactly once

Whatever is asked of a coordinator and whatever its store refuses, a request
that was accepted into a buffer waits there, has gone out in exactly one batch
call, or was dropped by a failed flush or a clear.
-/

namespace Cascade.Coordinator

variable {σ : Type}

/-- A run of operations from a new coordinator, with the stages of all of them.

Between two operations the backing may change in any way, but no calls are made in the name of the
coordinator. -/
inductive Run [Store σ] (ctx : Context) :
    List (Stage (Watched σ)) → Coordinator → Backing (Watched σ) → Prop
  | new (policy : Policy) (b : Backing (Watched σ)) : b.store.seen = [] → Run ctx [] (.new policy) b
  | perform {history : List (Stage (Watched σ))} {c : Coordinator} {b : Backing (Watched σ)}
      (operation : Operation) : Run ctx history c b →
        Run ctx (history ++ stages ctx operation c b)
          (perform ctx operation c b).2.1 (perform ctx operation c b).2.2
  | change {history : List (Stage (Watched σ))} {c : Coordinator} {b : Backing (Watched σ)}
      (other : Backing (Watched σ)) : Run ctx history c b → other.store.seen = b.store.seen →
        Run ctx history c other

theorem Run.performAll [Store σ]
    {ctx : Context} {history : List (Stage (Watched σ))} {c : Coordinator}
    {b : Backing (Watched σ)} (h : Run ctx history c b) (operations : List Operation) :
    Run ctx (history ++ (performAll ctx operations c b).1) (performAll ctx operations c b).2.1
      (performAll ctx operations c b).2.2 := by
  induction operations generalizing history c b with
  | nil => simpa [Coordinator.performAll] using h
  | cons operation rest ih => simpa [Coordinator.performAll] using ih (.perform operation h)

/-- A stage in which requests get lost: a flush that fails, or a clear of a coordinator in which
something waits. -/
def Stage.Loses [Store σ] (ctx : Context) : Stage σ → Prop
  | .flush reset c b => ∃ e, (c.flushWith ctx reset b).1 = .error e
  | .clear c => c.pending ≠ 0
  | _ => False

/-- What a flush or a clear acts on could be sent. -/
def Stage.Ready (registry : Registry) : Stage σ → Prop
  | .flush _ c _ => c.Sendable registry
  | .clear c => c.Sendable registry
  | _ => True

/-- The invariant of a coordinator at a moment, after a history of stages that began when the store
had seen the batch calls `earlier`. -/
structure Tally [Store σ] (ctx : Context) (earlier : List Seen)
    (history : List (Stage (Watched σ))) (m : Moment (Watched σ)) : Prop where
  wellFormed : m.WellFormed ctx.registry
  /-- Requests are accepted in the order of their numbers, and a number that waits for its request
  is above all others. -/
  numbered : ∃ n, Limited n m.given m.coordinator ∧ Arrived n ((accepted history).map Prod.fst)
  known : ∀ entry ∈ accepted history, ∃ parcel,
    entry.2.parcel? ctx.registry entry.1 = some parcel
  /-- What was accepted waits, was sent or was dropped. -/
  balanced : (acceptedParcels ctx.registry history).Perm
    (m.coordinator.parcels ctx.registry ++
      ((sent ctx.registry history).flatten ++ dropped ctx.registry history))
  /-- The batch calls that the store has seen are those of the stages. -/
  called : batches m.backing.store.seen = earlier ++ history.flatMap (Stage.calls ctx.registry)
  ready : ∀ stage ∈ history, stage.Ready ctx.registry

section Tally

variable [Store σ] {ctx : Context}

omit [Store σ] in
@[simp] theorem acceptedParcels_append (registry : Registry) (first second : List (Stage σ)) :
    acceptedParcels registry (first ++ second) =
      acceptedParcels registry first ++ acceptedParcels registry second := by
  simp [acceptedParcels]

@[simp] theorem sent_append (registry : Registry) (first second : List (Stage σ)) :
    sent registry (first ++ second) = sent registry first ++ sent registry second := by
  simp [sent, attempts]

@[simp] theorem dropped_append (registry : Registry) (first second : List (Stage σ)) :
    dropped registry (first ++ second) = dropped registry first ++ dropped registry second :=
  List.flatMap_append

theorem Move.ready
    {stage : Stage σ} {m next : Moment σ} (hmove : Move ctx stage m next)
    (h : m.WellFormed ctx.registry) : stage.Ready ctx.registry := by
  obtain ⟨n, -, hwell⟩ := h
  cases hmove with
  | flush | clear => exact hwell.sendable
  | number | statement | member | entrant | force | execute | adjust => trivial

theorem Stage.Ready.loses
    {stage : Stage σ} (h : stage.Ready ctx.registry) (hdropped : stage.dropped ctx.registry ≠ []) :
    stage.Loses ctx := by
  cases stage with
  | flush reset c b =>
      rcases flushWith_cases ctx reset h b with
        ⟨totals, hattempted, -, -, -⟩ | ⟨sent, refused, rest, e, -, -, hfail, -⟩
      · have hnone : (Stage.flush reset c b).dropped ctx.registry = [] := by
          simp [Stage.dropped, Stage.attempts, hattempted]
        exact absurd hnone hdropped
      · exact ⟨_, hfail⟩
  | clear c =>
      intro hnone
      rw [← length_parcels ctx.registry h] at hnone
      exact hdropped (List.length_eq_zero_iff.1 hnone)
  | number | queue | force | execute | adjust => exact absurd rfl hdropped

theorem Move.numbered
    {stage : Stage σ} {m next : Moment σ} (hmove : Move ctx stage m next) {n : Nat}
    (hn : Limited n m.given m.coordinator) {ids : List RequestId} (h : Arrived n ids) :
    ∃ n, Limited n next.given next.coordinator ∧
      Arrived n (ids ++ stage.accepted.map Prod.fst) := by
  have hsilent : Arrived n (ids ++ []) := (List.append_nil ids).symm ▸ h
  cases hmove with
  | flush given reset c b => exact ⟨n, hn.flushWith ctx reset b, hsilent⟩
  | number given c b =>
      exact ⟨n, ⟨Nat.le_succ_of_le hn.le, fun _ => Nat.lt_succ_of_le hn.le⟩, hsilent⟩
  | statement s c b => exact ⟨c.requests, ⟨Nat.le_refl _, nofun⟩, h.concat c.latest (hn.lt rfl)⟩
  | member record group c b _ _ =>
      exact ⟨c.requests, ⟨Nat.le_refl _, nofun⟩, h.concat c.latest (hn.lt rfl)⟩
  | entrant record depth c b _ _ _ =>
      exact ⟨c.requests, ⟨Nat.le_refl _, nofun⟩, h.concat c.latest (hn.lt rfl)⟩
  | force | execute | clear | adjust => exact ⟨n, ⟨hn.le, hn.lt⟩, hsilent⟩

theorem Move.known
    {stage : Stage σ} {m next : Moment σ} (hmove : Move ctx stage m next)
    {entry : RequestId × Request} (hmem : entry ∈ stage.accepted) :
    ∃ parcel, entry.2.parcel? ctx.registry entry.1 = some parcel := by
  cases hmove with
  | statement s c b =>
      rw [List.mem_singleton.1 hmem]
      exact ⟨_, rfl⟩
  | member record group c b hknown _ =>
      have hroot : ctx.registry.contains (c.latest, record).2.root := hknown
      obtain ⟨statement, -, hparcel⟩ := Registry.bind_of_contains hroot
      rw [List.mem_singleton.1 hmem]
      exact ⟨_, hparcel⟩
  | entrant record depth c b hknown _ _ =>
      have hroot : ctx.registry.contains (c.latest, record).2.root := hknown
      obtain ⟨statement, -, hparcel⟩ := Registry.bind_of_contains hroot
      rw [List.mem_singleton.1 hmem]
      exact ⟨_, hparcel⟩
  | flush | number | force | execute | clear | adjust => cases hmem

theorem Tally.step
    {earlier : List Seen} {history : List (Stage (Watched σ))}
    {stage : Stage (Watched σ)} {m next : Moment (Watched σ)} (hmove : Move ctx stage m next)
    (h : Tally ctx earlier history m) : Tally ctx earlier (history ++ [stage]) next := by
  constructor
  case wellFormed => exact hmove.wellFormed h.wellFormed
  case numbered =>
    obtain ⟨n, hn, hids⟩ := h.numbered
    simpa using hmove.numbered hn hids
  case known =>
    intro entry hmem
    rw [accepted_append] at hmem
    rcases List.mem_append.1 hmem with hmem | hmem
    · exact h.known entry hmem
    · exact hmove.known (by simpa using hmem)
  case balanced =>
    have hbefore := h.balanced
    have hmoved := hmove.balance h.wellFormed
    rw [List.perm_iff_count] at hbefore hmoved ⊢
    intro parcel
    have hcount := hbefore parcel
    have hcount' := hmoved parcel
    simp only [acceptedParcels_append, sent_append, dropped_append, List.flatten_append,
      List.count_append] at hcount hcount' ⊢
    omega
  case called =>
    rw [hmove.called h.wellFormed, h.called, List.flatMap_append, List.flatMap_singleton,
      List.append_assoc]
  case ready =>
    intro other hmem
    rcases List.mem_append.1 hmem with hmem | hmem
    · exact h.ready other hmem
    · rw [List.mem_singleton.1 hmem]
      exact hmove.ready h.wellFormed

theorem Tally.new (policy : Policy) (b : Backing (Watched σ)) :
    Tally ctx (batches b.store.seen) [] ⟨false, .new policy, b⟩ := by
  constructor
  case wellFormed => exact ⟨0, ⟨Nat.le_refl _, nofun⟩, .of_nothing rfl rfl⟩
  case numbered => exact ⟨0, ⟨Nat.le_refl _, nofun⟩, .nil 0⟩
  case known =>
    intro entry hmem
    cases hmem
  case balanced => exact List.Perm.refl []
  case called => exact (List.append_nil _).symm
  case ready =>
    intro stage hmem
    cases hmem

theorem Tally.perform
    {earlier : List Seen} {history : List (Stage (Watched σ))} {given : Bool}
    {c : Coordinator} {b : Backing (Watched σ)} (h : Tally ctx earlier history ⟨given, c, b⟩)
    (operation : Operation) :
    ∃ last, Tally ctx earlier (history ++ stages ctx operation c b)
      ⟨last, (perform ctx operation c b).2.1, (perform ctx operation c b).2.2⟩ := by
  obtain ⟨last, hpath⟩ := path_stages ctx given operation c b
  exact ⟨last, hpath.accumulates Tally.step h⟩

theorem Tally.change
    {earlier : List Seen} {history : List (Stage (Watched σ))} {given : Bool}
    {c : Coordinator} {b other : Backing (Watched σ)} (h : Tally ctx earlier history ⟨given, c, b⟩)
    (hseen : other.store.seen = b.store.seen) : Tally ctx earlier history ⟨given, c, other⟩ where
  wellFormed := h.wellFormed
  numbered := h.numbered
  known := h.known
  balanced := h.balanced
  called := by
    rw [hseen]
    exact h.called
  ready := h.ready

theorem Tally.mem_acceptedParcels_of_sent
    {earlier : List Seen} {history : List (Stage (Watched σ))} {m : Moment (Watched σ)}
    (h : Tally ctx earlier history m) {attempt : Attempt}
    (hattempt : attempt ∈ attempts ctx.registry history) {parcel : Parcel}
    (hparcel : parcel ∈ attempt.group.parcels) :
    parcel ∈ acceptedParcels ctx.registry history := by
  refine h.balanced.mem_iff.2 (List.mem_append_right _ (List.mem_append_left _ ?_))
  exact List.mem_flatten.2 ⟨_, List.mem_map_of_mem hattempt, hparcel⟩

theorem Run.tally
    {history : List (Stage (Watched σ))} {c : Coordinator} {b : Backing (Watched σ)}
    (h : Run ctx history c b) : ∃ given, Tally ctx [] history ⟨given, c, b⟩ := by
  induction h with
  | new policy b hseen =>
      have htally : Tally ctx (batches b.store.seen) [] ⟨false, .new policy, b⟩ :=
        .new policy b
      rw [hseen] at htally
      exact ⟨false, htally⟩
  | perform operation _ ih =>
      obtain ⟨given, htally⟩ := ih
      exact htally.perform operation
  | change other _ hseen ih =>
      obtain ⟨given, htally⟩ := ih
      exact ⟨given, htally.change hseen⟩

theorem Run.moved
    {history : List (Stage (Watched σ))} {c : Coordinator} {b : Backing (Watched σ)}
    (h : Run ctx history c b) :
    ∀ stage ∈ history, ∃ before after : Moment (Watched σ),
      before.WellFormed ctx.registry ∧ Move ctx stage before after := by
  induction h with
  | new => exact List.forall_mem_nil _
  | @perform history c b operation hrun ih =>
      obtain ⟨given, htally⟩ := hrun.tally
      obtain ⟨last, hpath⟩ := path_stages ctx given operation c b
      exact List.forall_mem_append.2 ⟨ih, (hpath.keeps Move.wellFormed htally.wellFormed).2⟩
  | change _ _ _ ih => exact ih

/-- What is conserved in a run.  Each accepted request is in one of three conditions: it waits, it
was sent in one batch call, or it was dropped. -/
structure Conserved (ctx : Context) (history : List (Stage (Watched σ))) (c : Coordinator)
    (b : Backing (Watched σ)) : Prop where
  numbered : ((accepted history).map Prod.fst).Nodup
  known : ∀ entry ∈ accepted history, ∃ parcel,
    entry.2.parcel? ctx.registry entry.1 = some parcel ∧ parcel.origin = some entry.1
  /-- The accepted requests are those that wait, those that were sent and those that were
  dropped. -/
  balanced : (acceptedParcels ctx.registry history).Perm
    (c.parcels ctx.registry ++
      ((sent ctx.registry history).flatten ++ dropped ctx.registry history))
  /-- None of them is in two of these conditions or twice in one. -/
  once : ((c.parcels ctx.registry ++
    ((sent ctx.registry history).flatten ++ dropped ctx.registry history)).map
      Parcel.origin).Nodup
  /-- The batch calls of the store are the calls that hold what was sent. -/
  called : (batches b.store.seen).map (fun sight => sight.call.statements) =
    (sent ctx.registry history).map (List.map Parcel.statement)
  /-- Nothing but a clear or a failed flush drops a request. -/
  drops : ∀ stage ∈ history, stage.dropped ctx.registry ≠ [] → stage.Loses ctx
  pending : c.statements.size + c.bufferedRecords = (c.parcels ctx.registry).length
  /-- To discard the coordinator yields that number and makes no call. -/
  discard : (c.discard ctx b).1 = (c.parcels ctx.registry).length ∧
    (c.discard ctx b).2.store = b.store
  /-- An operation that answers a number has accepted its request under that number. -/
  answered : ∀ operation id, (perform ctx operation c b).1 = .ok (.outcome (.queued id)) →
    ∃ request batch, operation = .submit request batch ∧
      accepted (stages ctx operation c b) = [(id, request)]

theorem origin_of_parcel?
    {registry : Registry} {id : RequestId} {request : Request} {parcel : Parcel}
    (h : request.parcel? registry id = some parcel) : parcel.origin = some id := by
  cases request with
  | record r =>
      obtain ⟨d, -, rfl⟩ := Option.map_eq_some_iff.1 h
      rfl
  | statement s =>
      cases h
      rfl

theorem origins_acceptedParcels
    {registry : Registry} {entries : List (RequestId × Request)}
    (h : ∀ entry ∈ entries, ∃ parcel, entry.2.parcel? registry entry.1 = some parcel) :
    (entries.filterMap (fun entry => entry.2.parcel? registry entry.1)).map Parcel.origin =
      (entries.map Prod.fst).map some := by
  induction entries with
  | nil => rfl
  | cons entry rest ih =>
      obtain ⟨parcel, hparcel⟩ := h entry List.mem_cons_self
      have hrest := ih (fun other hmem => h other (List.mem_cons_of_mem _ hmem))
      simp [hparcel, origin_of_parcel? hparcel, hrest]

/-- Every request that is accepted into a buffer waits, was sent in exactly one batch call, or was
dropped by a failed flush or a clear. -/
theorem exactly_once
    {history : List (Stage (Watched σ))} {c : Coordinator} {b : Backing (Watched σ)}
    (h : Run ctx history c b) : Conserved ctx history c b := by
  obtain ⟨given, htally⟩ := h.tally
  obtain ⟨n, -, hwell⟩ := htally.wellFormed
  obtain ⟨m, -, harrived⟩ := htally.numbered
  have hnumbered : ((accepted history).map Prod.fst).Nodup := harrived.nodup
  have hlength := length_parcels ctx.registry hwell.sendable
  constructor
  case numbered => exact hnumbered
  case known =>
    intro entry hmem
    obtain ⟨parcel, hparcel⟩ := htally.known entry hmem
    exact ⟨parcel, hparcel, origin_of_parcel? hparcel⟩
  case balanced => exact htally.balanced
  case once =>
    have horigins := origins_acceptedParcels htally.known
    refine (htally.balanced.map Parcel.origin).nodup_iff.1 ?_
    rw [acceptedParcels, horigins]
    exact List.Pairwise.map some (fun _ _ hne heq => hne (Option.some.inj heq)) hnumbered
  case called =>
    rw [htally.called]
    exact statements_calls_history ctx.registry history
  case drops => exact fun stage hmem hdropped => (htally.ready stage hmem).loses hdropped
  case pending => exact hlength.symm
  case discard =>
    rw [hlength]
    unfold discard
    split <;> exact ⟨rfl, rfl⟩
  case answered =>
    intro operation id hid
    exact accepted_of_queued ctx hid

end Tally

/-- Requests of both kinds are flushed twice, the second time over a store that refuses the eighth
statement.  Some are cleared then, one is flushed by an immediate request, and one is left. -/
def scattering : List Operation :=
  [.submit (.statement ⟨"x", []⟩) true, .submit (.record (insertion "a" 0)) true,
    .submit (.record (insertion "b" 1)) true, .submit (.statement ⟨"y", []⟩) true,
    .submit (.statement ⟨"x", []⟩) true, .flush false,
    .submit (.record (insertion "a" 0)) true, .submit (.record (insertion "a" 0)) true,
    .submit (.statement ⟨"x", []⟩) true, .submit (.record (insertion "c" 0)) true, .flush true,
    .submit (.statement ⟨"y", []⟩) true, .submit (.record (insertion "b" 0)) true, .clear,
    .submit (.record (insertion "b" 0)) true, .submit (.record (insertion "e" 0)) true,
    .submit (.statement ⟨"x", []⟩) false, .submit (.statement ⟨"y", []⟩) true]

def scattered : List (Stage (Watched Memory)) × Coordinator × Backing (Watched Memory) :=
  performAll (lettered []) scattering (.new { flushOnMixed := false })
    ⟨⟨[], { failAt := some 8 }⟩, {}, []⟩

theorem exactly_once_of_scattered :
    Conserved (lettered []) scattered.1 scattered.2.1 scattered.2.2 ∧
      (accepted scattered.1).length = 13 ∧
      (sent (lettered []).registry scattered.1).map (List.map Parcel.origin) =
        [[some ⟨1⟩, some ⟨5⟩], [some ⟨4⟩], [some ⟨2⟩], [some ⟨3⟩], [some ⟨8⟩],
          [some ⟨6⟩, some ⟨7⟩], [some ⟨12⟩]] ∧
      (dropped (lettered []).registry scattered.1).map Parcel.origin =
        [some ⟨9⟩, some ⟨10⟩, some ⟨11⟩] ∧
      (scattered.2.1.parcels (lettered []).registry).map Parcel.origin = [some ⟨13⟩] := by
  have hrun : Run (lettered []) scattered.1 scattered.2.1 scattered.2.2 :=
    (Run.new { flushOnMixed := false } _ rfl).performAll scattering
  exact ⟨exactly_once hrun, by decide +kernel, by decide +kernel, by decide +kernel,
    by decide +kernel⟩

end Cascade.Coordinator
