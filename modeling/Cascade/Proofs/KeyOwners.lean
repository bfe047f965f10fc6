import Cascade.Proofs.Deliveries
import Cascade.Proofs.Receipts
import Cascade.Proofs.Tenure

/-!
# Generated keys and their requests

A key belongs to the request whose statement the store was executing when it
generated the key.  Every key that the flushes of a coordinator have generated
is held under its request or was handed over, and never both: the numbers of
requests do not repeat, so no key takes the place of another.
-/

namespace Cascade.Coordinator

open Json

/-- A stage generates a key for a request.  It is a flush that succeeds while keys are fetched; the
bound statement of the request is an insert that waits at some place of the line, and the receipt at
this place is for this statement and has the key. -/
inductive Stage.Generates (ctx : Context) (id : RequestId) (request : Request) (key : Datum) :
    Stage (Watched Memory) → Prop
  | flush {reset : Bool} {c : Coordinator} {b : Backing (Watched Memory)} {totals : Totals}
      {place : Nat} {parcel : Parcel} :
      (c.flushWith ctx reset b).1 = .ok totals → c.policy.fetchKeys = true →
      request.parcel? ctx.registry id = some parcel → parcel.statement.isInsert = true →
      (c.parcels ctx.registry)[place]? = some parcel →
      (c.receipts ctx.registry b.store.behind)[place]? = some ⟨parcel.statement, some key⟩ →
      Generates ctx id request key (.flush reset c b)

section Generation

variable {ctx : Context} {earlier : List Seen} {history : List (Stage (Watched Memory))}
  {stage : Stage (Watched Memory)} {m next : Moment (Watched Memory)} {id : RequestId} {key : Datum}

theorem Stage.Generates.mem_issued
    {request : Request} (h : stage.Generates ctx id request key) (hmove : Move ctx stage m next)
    (hwell : m.WellFormed ctx.registry) : (id, key) ∈ stage.issued ctx := by
  obtain ⟨hok, hfetch, hparcel, hinsert, hplace, hreceipt⟩ := h
  cases hmove
  obtain ⟨n, -, hwell⟩ := hwell
  exact (mem_issued_flush_iff hwell).2
    ⟨⟨_, hok⟩, hfetch, _, _, hplace, origin_of_parcel? hparcel, hinsert, hreceipt⟩

/-- Behind every key that a stage yields there is a parcel that was sent. -/
theorem Move.generates_of_mem_issued
    (hmove : Move ctx stage m next) (hwell : m.WellFormed ctx.registry)
    (hmem : (id, key) ∈ stage.issued ctx) :
    ∃ attempt ∈ stage.attempts ctx.registry, ∃ parcel ∈ attempt.group.parcels,
      parcel.origin = some id ∧ ∀ request, request.parcel? ctx.registry id = some parcel →
        stage.Generates ctx id request key := by
  cases hmove with
  | flush given reset c b =>
      obtain ⟨n, -, hwell⟩ := hwell
      obtain ⟨⟨totals, hok⟩, hfetch, place, parcel, hplace, horigin, hinsert, hreceipt⟩ :=
        (mem_issued_flush_iff hwell).1 hmem
      have hwaits : parcel ∈ c.parcels ctx.registry := List.mem_of_getElem? hplace
      rw [← parcels_attempts_of_ok hwell.sendable hok] at hwaits
      obtain ⟨attempt, hattempt, hparcel⟩ := List.mem_flatMap.1 hwaits
      exact ⟨attempt, hattempt, parcel, hparcel, horigin,
        fun request hrequest => .flush hok hfetch hrequest hinsert hplace hreceipt⟩
  | number | statement | member | entrant | force | execute | clear | adjust => cases hmem

/-- The keys of a history are those that its stages generate for accepted requests. -/
theorem Tally.mem_issued_iff
    (h : Tally ctx earlier history m)
    (hmoved : ∀ stage ∈ history, ∃ before after : Moment (Watched Memory),
      before.WellFormed ctx.registry ∧ Move ctx stage before after) :
    (id, key) ∈ issued ctx history ↔ ∃ request, (id, request) ∈ accepted history ∧
      ∃ stage ∈ history, stage.Generates ctx id request key := by
  constructor
  · intro hmem
    obtain ⟨stage, hstage, hissued⟩ := List.mem_flatMap.1 hmem
    obtain ⟨before, after, hwell, hmove⟩ := hmoved stage hstage
    obtain ⟨attempt, hattempt, parcel, hparcel, horigin, hgenerates⟩ :=
      hmove.generates_of_mem_issued hwell hissued
    have hmade : attempt ∈ attempts ctx.registry history :=
      List.mem_flatMap.2 ⟨stage, hstage, hattempt⟩
    have hsent := h.mem_acceptedParcels_of_sent hmade hparcel
    obtain ⟨⟨other, request⟩, haccepted, hrequest⟩ := List.mem_filterMap.1 hsent
    have hid : other = id := Option.some.inj ((origin_of_parcel? hrequest).symm.trans horigin)
    subst hid
    exact ⟨request, haccepted, stage, hstage, hgenerates request hrequest⟩
  · rintro ⟨request, -, stage, hstage, hgenerates⟩
    obtain ⟨before, after, hwell, hmove⟩ := hmoved stage hstage
    exact List.mem_flatMap.2 ⟨stage, hstage, hgenerates.mem_issued hmove hwell⟩

theorem Move.adds (hmove : Move ctx stage m next) (hwell : m.WellFormed ctx.registry) :
    ∃ receipts, Memory.Adds receipts m.backing.store.behind next.backing.store.behind ∧
      ((stage.issued ctx).map Prod.snd).Sublist (receipts.filterMap Receipt.key) := by
  cases hmove with
  | flush given reset c b =>
      obtain ⟨n, -, hwell⟩ := hwell
      refine ⟨_, adds_flushWith hwell.sendable reset, ?_⟩
      rcases hresult : (c.flushWith ctx reset b).1 with e | totals
      · simp only [Stage.issued, hresult]
        exact List.nil_sublist _
      · rw [(receipted_flush hwell hresult).2]
        exact Receipt.claims_sublist _ _
  | execute given request c b =>
      obtain ⟨receipts, hadds⟩ := adds_executeNow ctx.registry c.policy.fetchKeys request b
      exact ⟨receipts, hadds, List.nil_sublist _⟩
  | number | statement | member | entrant | force | clear | adjust =>
      exact ⟨[], .of_eq rfl rfl, List.nil_sublist _⟩

end Generation

/-! ## Held or handed over -/

/-- The invariant of the keys of a coordinator, after a history of stages in which the keys `given`
were handed over. -/
structure Filed (ctx : Context) (given : List (RequestId × Datum))
    (history : List (Stage (Watched Memory))) (m : Moment (Watched Memory)) : Prop where
  tally : Tally ctx [] history m
  /-- Every key of the history is held or was handed over. -/
  shared : (issued ctx history).Perm (given ++ m.coordinator.keys.entries)
  /-- Every flush of the history has left what was held. -/
  kept : ∀ reset c b, .flush reset c b ∈ history →
    ∀ entry ∈ c.keys.entries, entry ∈ (c.flushWith ctx reset b).2.1.keys.entries
  /-- The keys of the history are among those that the store has generated, in the same order. -/
  generated : ((issued ctx history).map Prod.snd).Sublist m.backing.store.behind.keys

section Filed

variable {ctx : Context} {given later : List (RequestId × Datum)}
  {stage : Stage (Watched Memory)} {history listed : List (Stage (Watched Memory))}
  {m next last : Moment (Watched Memory)} {flag : Bool} {c : Coordinator}
  {b : Backing (Watched Memory)}

theorem Move.filed
    (hmove : Move ctx stage m next) (hne : stage ≠ .adjust) (h : Filed ctx given history m) :
    Filed ctx given (history ++ [stage]) next := by
  have htally := h.tally.step hmove
  have hissued : issued ctx (history ++ [stage]) = issued ctx history ++ stage.issued ctx := by
    simp [issued]
  have hshared : (issued ctx (history ++ [stage])).Perm
      (given ++ (m.coordinator.keys.entries ++ stage.issued ctx)) := by
    rw [hissued, ← List.append_assoc]
    exact h.shared.append_right _
  -- Requests have numbers of their own, so nothing that is filed meets what is held.
  have hfresh : ((m.coordinator.keys.entries ++ stage.issued ctx).map Prod.fst).Nodup :=
    ((hshared.map Prod.fst).nodup_iff.1 htally.issued_nodup).sublist
      ((List.sublist_append_right _ _).map Prod.fst)
  have hentries := Dictionary.perm_insertAll hfresh
  rw [← hmove.keys h.tally.wellFormed hne] at hentries
  refine ⟨htally, hshared.trans (hentries.symm.append_left given), ?_, ?_⟩
  · intro reset c b hmem entry hheld
    rcases List.mem_append.1 hmem with hmem | hmem
    · exact h.kept reset c b hmem entry hheld
    · rw [← List.mem_singleton.1 hmem] at hmove
      cases hmove
      exact hentries.mem_iff.2 (List.mem_append_left _ hheld)
  · obtain ⟨receipts, hadds, hsublist⟩ := hmove.adds h.tally.wellFormed
    rw [hissued, List.map_append, hadds.keys]
    exact h.generated.append hsublist

theorem Path.filed
    (hpath : Path ctx listed m last) (hnot : .adjust ∉ listed) (h : Filed ctx given history m) :
    Filed ctx given (history ++ listed) last := by
  induction hpath generalizing history with
  | nil =>
      rw [List.append_nil]
      exact h
  | cons hmove _ ih =>
      rw [List.mem_cons, not_or] at hnot
      have hrest := ih hnot.2 (hmove.filed (Ne.symm hnot.1) h)
      rw [List.append_assoc] at hrest
      exact hrest

/-- A change of the policy and a handing over only move keys from what is held to what is given. -/
theorem Filed.adjust
    (h : Filed ctx given history m) (htally : Tally ctx [] (history ++ [.adjust]) next)
    (hbacking : next.backing = m.backing)
    (hshared : (given ++ m.coordinator.keys.entries).Perm
      (later ++ next.coordinator.keys.entries)) :
    Filed ctx later (history ++ [.adjust]) next := by
  have hissued : issued ctx (history ++ [.adjust]) = issued ctx history := by
    simp [issued, Stage.issued]
  refine ⟨htally, ?_, ?_, ?_⟩
  · rw [hissued]
    exact h.shared.trans hshared
  · intro reset c b hmem
    exact h.kept reset c b ((List.mem_append.1 hmem).resolve_right (by simp))
  · rw [hissued, hbacking]
    exact h.generated

theorem Filed.perform (h : Filed ctx given history ⟨flag, c, b⟩) (operation : Operation) :
    ∃ last, Filed ctx (given ++ handed (perform ctx operation c b).1)
      (history ++ stages ctx operation c b)
      ⟨last, (perform ctx operation c b).2.1, (perform ctx operation c b).2.2⟩ := by
  by_cases htake : operation = .takeKeys
  · subst htake
    obtain ⟨last, htally⟩ := h.tally.perform .takeKeys
    exact ⟨last, h.adjust htally rfl (.of_eq (List.append_nil _).symm)⟩
  rw [handed_perform htake, List.append_nil]
  rcases hadjusts : operation.adjusts with _ | _
  · obtain ⟨last, hpath⟩ := path_stages ctx flag operation c b
    exact ⟨last, hpath.filed (adjust_not_mem_stages ctx hadjusts c b) h⟩
  · obtain ⟨hstages, hbacking⟩ := stages_of_adjusts ctx hadjusts c b
    obtain ⟨n, hlimited, hwell⟩ := h.tally.wellFormed
    obtain ⟨last, htally⟩ := h.tally.perform operation
    have hkeys := keys_perform hwell hlimited.le htake b
    rw [hstages] at htally hkeys ⊢
    refine ⟨last, h.adjust htally hbacking ?_⟩
    rw [hkeys]
    exact List.Perm.refl _

end Filed

/-! ## The keys of a run -/

/-- A key was generated for an accepted request in one of the acts. -/
def Generated (ctx : Context) (acts : List (Act (Watched Memory))) (id : RequestId)
    (key : Datum) : Prop :=
  ∃ request, (id, request) ∈ accepted (acts.flatMap Act.stages) ∧
    ∃ act ∈ acts, ∃ stage ∈ act.stages, stage.Generates ctx id request key

/-- A key was handed over with the number of its request in one of the acts. -/
def HandedOver (acts : List (Act (Watched Memory))) (id : RequestId) (key : Datum) : Prop :=
  ∃ act ∈ acts, act.operation = .takeKeys ∧ (id, key) ∈ handed act.answer

/-- What a flush does to the keys that a coordinator holds. -/
structure FlushKeeps (ctx : Context) (reset : Bool) (c : Coordinator)
    (b : Backing (Watched Memory)) : Prop where
  /-- The receipts are for the statements that the store records, with the keys that it generates,
  whether or not the flush succeeds. -/
  receipts : Memory.Adds (c.receipts ctx.registry b.store.behind) b.store.behind
    (c.flushWith ctx reset b).2.2.store.behind
  /-- If the flush succeeds while keys are fetched, it generates a key for every request that waits
  with an insert. -/
  generates : ∀ totals, (c.flushWith ctx reset b).1 = .ok totals → c.policy.fetchKeys = true →
    ∀ id request parcel, request.parcel? ctx.registry id = some parcel →
      parcel ∈ c.parcels ctx.registry → parcel.statement.isInsert = true →
        ∃ key, (Stage.flush reset c b).Generates ctx id request key
  /-- No key that is held is lost or replaced. -/
  kept : ∀ entry ∈ c.keys.entries, entry ∈ (c.flushWith ctx reset b).2.1.keys.entries
  /-- A flush that fails adds no key. -/
  failed : ∀ e, (c.flushWith ctx reset b).1 = .error e → (c.flushWith ctx reset b).2.1.keys = c.keys

/-- Keys are held for the requests for which they were generated. -/
structure Attributed (ctx : Context) (acts : List (Act (Watched Memory))) (c : Coordinator) :
    Prop where
  /-- No two requests were accepted under one number. -/
  numbers : ((accepted (acts.flatMap Act.stages)).map Prod.fst).Nodup
  /-- The keys that are held are those that were generated and not handed over. -/
  held : ∀ id key, (id, key) ∈ c.keys.entries ↔
    Generated ctx acts id key ∧ ¬HandedOver acts id key
  handed : ∀ id key, HandedOver acts id key → Generated ctx acts id key
  /-- Different requests have different keys, and a request has one key. -/
  distinct : ∀ id other key last, Generated ctx acts id key → Generated ctx acts other last →
    (id = other ↔ key = last)
  flushes : ∀ act ∈ acts, ∀ reset d begun, .flush reset d begun ∈ act.stages →
    FlushKeeps ctx reset d begun

section Runs

variable {ctx : Context} {policy : Policy} {acts : List (Act (Watched Memory))} {c : Coordinator}
  {b : Backing (Watched Memory)} {id : RequestId} {key : Datum}

theorem Annals.filed (h : Annals ctx Memory.KeepsCount policy acts c b) :
    ∃ flag, Filed ctx (acts.flatMap (fun act => handed act.answer)) (acts.flatMap Act.stages)
      ⟨flag, c, b⟩ := by
  induction h with
  | new b hseen =>
      have hrun : Run ctx [] (.new policy) b := .new policy b hseen
      obtain ⟨flag, htally⟩ := hrun.tally
      exact ⟨flag, htally, List.Perm.refl [], nofun, List.nil_sublist _⟩
  | perform operation _ ih =>
      obtain ⟨flag, hfiled⟩ := ih
      simp only [List.flatMap_append, List.flatMap_singleton]
      exact hfiled.perform operation
  | change other _ hseen hcounts ih =>
      obtain ⟨flag, hfiled⟩ := ih
      exact ⟨flag, hfiled.tally.change hseen, hfiled.shared, hfiled.kept,
        hfiled.generated.trans (Memory.KeepsCount.keys_sublist hcounts)⟩

theorem Annals.handed_eq_nil
    (h : Annals ctx Memory.KeepsCount policy acts c b) {act : Act (Watched Memory)}
    (hmem : act ∈ acts) (hne : act.operation ≠ .takeKeys) : handed act.answer = [] := by
  induction h with
  | new => cases hmem
  | perform operation _ ih =>
      rcases List.mem_append.1 hmem with hmem | hmem
      · exact ih hmem
      · rw [List.mem_singleton.1 hmem] at hne ⊢
        exact handed_perform hne _ _
  | change _ _ _ _ ih => exact ih hmem

theorem Annals.mem_handed_iff (h : Annals ctx Memory.KeepsCount policy acts c b) :
    (id, key) ∈ acts.flatMap (fun act => handed act.answer) ↔ HandedOver acts id key := by
  constructor
  · intro hmem
    obtain ⟨act, hact, hhanded⟩ := List.mem_flatMap.1 hmem
    by_cases htake : act.operation = .takeKeys
    · exact ⟨act, hact, htake, hhanded⟩
    · rw [h.handed_eq_nil hact htake] at hhanded
      cases hhanded
  · rintro ⟨act, hact, -, hhanded⟩
    exact List.mem_flatMap.2 ⟨act, hact, hhanded⟩

theorem Annals.mem_issued_iff (h : Annals ctx Memory.KeepsCount policy acts c b) :
    (id, key) ∈ issued ctx (acts.flatMap Act.stages) ↔ Generated ctx acts id key := by
  obtain ⟨flag, htally⟩ := h.run.tally
  rw [htally.mem_issued_iff h.run.moved]
  constructor
  · rintro ⟨request, haccepted, stage, hstage, hgenerates⟩
    obtain ⟨act, hact, hmem⟩ := List.mem_flatMap.1 hstage
    exact ⟨request, haccepted, act, hact, stage, hmem, hgenerates⟩
  · rintro ⟨request, haccepted, act, hact, stage, hmem, hgenerates⟩
    exact ⟨request, haccepted, stage, List.mem_flatMap.2 ⟨act, hact, hmem⟩, hgenerates⟩

/-- A key was generated exactly if it was handed over or is held. -/
theorem Annals.generated_iff (h : Annals ctx Memory.KeepsCount policy acts c b) :
    Generated ctx acts id key ↔ HandedOver acts id key ∨ (id, key) ∈ c.keys.entries := by
  obtain ⟨flag, hfiled⟩ := h.filed
  rw [← h.mem_issued_iff, hfiled.shared.mem_iff, List.mem_append, h.mem_handed_iff]

theorem Annals.not_handed_of_held
    (h : Annals ctx Memory.KeepsCount policy acts c b) (hheld : (id, key) ∈ c.keys.entries) :
    ¬HandedOver acts id key := by
  intro hhanded
  obtain ⟨flag, hfiled⟩ := h.filed
  have hnodup := (hfiled.shared.map Prod.fst).nodup_iff.1 hfiled.tally.issued_nodup
  exact (List.nodup_append.1 hnodup.of_map).2.2 _ (h.mem_handed_iff.2 hhanded) _ hheld rfl

theorem Annals.flushKeeps
    (h : Annals ctx Memory.KeepsCount policy acts c b) {act : Act (Watched Memory)}
    (hact : act ∈ acts) {reset : Bool} {d : Coordinator} {begun : Backing (Watched Memory)}
    (hflush : .flush reset d begun ∈ act.stages) : FlushKeeps ctx reset d begun := by
  obtain ⟨flag, hfiled⟩ := h.filed
  have hstage : Stage.flush reset d begun ∈ acts.flatMap Act.stages :=
    List.mem_flatMap.2 ⟨act, hact, hflush⟩
  obtain ⟨before, after, hwell, hmove⟩ := h.run.moved _ hstage
  cases hmove
  obtain ⟨n, -, hwell⟩ := hwell
  constructor
  case receipts => exact adds_flushWith hwell.sendable reset
  case generates =>
    intro totals hok hfetch id request parcel hrequest hwaits hinsert
    obtain ⟨hreceipted, -⟩ := receipted_flush hwell hok
    rw [hfetch] at hreceipted
    obtain ⟨place, hplace⟩ := List.mem_iff_getElem?.1 hwaits
    obtain ⟨key, hkey⟩ := hreceipted.exists_key hplace hinsert
    exact ⟨key, .flush hok hfetch hrequest hinsert hplace hkey⟩
  case kept => exact hfiled.kept reset d begun hstage
  case failed =>
    intro e hfail
    rw [coordinator_flushWith, hfail]
    rfl

/-- The generated keys that a coordinator over a recording store holds are those of the requests for
which the store has generated them. -/
theorem keys_attributed_to_requests (h : Annals ctx Memory.KeepsCount policy acts c b) :
    Attributed ctx acts c := by
  obtain ⟨flag, hfiled⟩ := h.filed
  constructor
  case numbers => exact h.numbers
  case held =>
    intro id key
    constructor
    · exact fun hheld => ⟨h.generated_iff.2 (Or.inr hheld), h.not_handed_of_held hheld⟩
    · rintro ⟨hgenerated, hnot⟩
      exact (h.generated_iff.1 hgenerated).resolve_left hnot
  case handed => exact fun id key hhanded => h.generated_iff.2 (Or.inl hhanded)
  case distinct =>
    intro id other key last hfirst hsecond
    have hkeys := hfiled.generated.nodup (Memory.nodup_keys b.store.behind)
    rw [← h.mem_issued_iff] at hfirst hsecond
    constructor
    · rintro rfl
      exact congrArg Prod.snd
        (List.inj_on_of_nodup_map hfiled.tally.issued_nodup hfirst hsecond rfl)
    · rintro rfl
      exact congrArg Prod.fst (List.inj_on_of_nodup_map hkeys hfirst hsecond rfl)
  case flushes => exact fun act hact reset d begun hflush => h.flushKeeps hact hflush

end Runs

/-- Two inserts of one text are buffered with other statements between them and flushed, then one
more is flushed while no keys are fetched. -/
def intermingling : List Operation :=
  [.submit (.statement ⟨"insert into a", [.null]⟩) true, .submit (.statement ⟨"x", []⟩) true,
    .submit (.statement ⟨"insert into b", []⟩) true,
    .submit (.statement ⟨"insert into a", []⟩) true, .flush false, .setFetchKeys (some false),
    .submit (.statement ⟨"insert into a", []⟩) true, .flush false]

def intermingled : List (Act (Watched Memory)) × Coordinator × Backing (Watched Memory) :=
  performActs ⟨.empty, "t", false⟩ intermingling (.new {}) untouched

theorem keys_attributed_to_requests_of_intermingled :
    Attributed ⟨.empty, "t", false⟩ intermingled.1 intermingled.2.1 ∧
      intermingled.2.1.keys.entries =
        [(⟨1⟩, Datum.ofNat 1), (⟨3⟩, Datum.ofNat 3), (⟨4⟩, Datum.ofNat 2)] := by
  have hnew : Annals ⟨.empty, "t", false⟩ Memory.KeepsCount {} [] (.new {}) untouched :=
    .new untouched rfl
  exact ⟨keys_attributed_to_requests (hnew.performActs intermingling), rfl⟩

end Cascade.Coordinator
