import Cascade.Proofs.Deliveries
import Cascade.Proofs.Keys
import Cascade.Proofs.Precedence

/-!
# Calls that ask for generated keys

Whether a call asks for keys is settled on three paths: for statements that wait
when the group of their text is begun, for record writes when their calls are
planned, and for a request that is executed at once when it is sent.  On all of
them a call asks for keys exactly if they are to be fetched at that time and the
text that is sent is an insert, because a text and its normal form are inserts
together.
-/

namespace Cascade

/-! ## Inserts -/

namespace Text

/-- The characters that make up the first bytes of a text in UTF-8.  There are none if the text is
shorter, or if the cut would go through a character. -/
def leadingBytes? : Nat → List Char → Option (List Char)
  | 0, _ => some []
  | _ + 1, [] => none
  | count + 1, c :: rest =>
      if c.utf8Size ≤ count + 1 then
        (leadingBytes? (count + 1 - c.utf8Size) rest).map (c :: ·)
      else none

/-- The first bytes of a text spell a word of one-byte letters exactly if its first characters
do. -/
theorem leadingBytes?_spell_iff
    {word : List Char} (hword : ∀ c : Char, c.toLower ∈ word → c.utf8Size = 1)
    (chars : List Char) :
    (∃ head, leadingBytes? word.length chars = some head ∧ head.map Char.toLower = word) ↔
      (chars.take word.length).map Char.toLower = word := by
  induction word generalizing chars with
  | nil => simp [leadingBytes?]
  | cons letter rest ih =>
      cases chars with
      | nil => simp [leadingBytes?]
      | cons c others =>
          by_cases hletter : c.toLower = letter
          · have hsize : c.utf8Size = 1 := hword c (by simp [hletter])
            have hrest := ih (fun d hd => hword d (List.mem_cons_of_mem _ hd)) others
            simpa [leadingBytes?, hsize, hletter] using hrest
          · -- Neither the characters nor the bytes begin with the letter.
            simp only [List.length_cons, leadingBytes?]
            split <;> simp [hletter]

end Text

open Text

theorem utf8Size_of_toLower_mem {c : Char} (h : c.toLower ∈ insertWord) : c.utf8Size = 1 := by
  have hsmall : insertWord.all (fun letter => letter.toNat ≤ 127) = true := by
    decide
  have hlower : c.toLower.toNat ≤ 127 := by simpa using List.all_eq_true.1 hsmall _ h
  rw [Char.utf8Size_eq_one_iff]
  unfold Char.toLower at hlower
  split at hlower
  · next hupper =>
    have hle : c.toNat ≤ 90 := hupper.2
    exact Nat.le_trans hle (by decide)
  · exact hlower

/-- A text is an insert exactly if the first six bytes behind its leading blanks spell the word, in
any case; a cut that goes through a character spells nothing. -/
theorem isInsertText_iff_leadingBytes (text : String) :
    isInsertText text = true ↔
      ∃ head, leadingBytes? 6 (dropBlanks text.toList) = some head ∧
        head.map Char.toLower = insertWord := by
  rw [isInsertText, beq_iff_eq]
  exact (leadingBytes?_spell_iff (fun c => utf8Size_of_toLower_mem) _).symm

/-- A group is marked as each statement is that belongs to it. -/
theorem StatementGroup.Marked.isInsert
    {group : StatementGroup} (h : group.Marked) {statement : Statement}
    (htext : normalText statement.text = group.text) : group.isInsert = statement.isInsert := by
  rw [h, ← htext, isInsertText_normalText, Statement.isInsert]

/-! ## What is asked of the store -/

def Request.seenNow {σ : Type} [Store σ] (registry : Registry) (fetch : Bool) (request : Request)
    (store : σ) : List Seen :=
  match request.bind registry with
  | .ok bound =>
      [.ofAnswer (.single bound (fetch && bound.isInsert))
        (Store.execute bound (fetch && bound.isInsert) store).1]
  | .error _ => []

namespace Coordinator

variable {σ : Type}

/-- The calls that a stage makes, single ones included. -/
def Stage.seen [Store σ] (registry : Registry) : Stage (Watched σ) → List Seen
  | .execute request fetch b => request.seenNow registry fetch b.store.behind
  | stage => stage.calls registry

def Act.seen [Store σ] (registry : Registry) (act : Act (Watched σ)) : List Seen :=
  act.stages.flatMap (Stage.seen registry)

section Stages

variable [Store σ] {ctx : Context} {stage : Stage (Watched σ)} {stages : List (Stage (Watched σ))}
  {m next last : Moment (Watched σ)}

theorem seen_executeNow
    (registry : Registry) (fetch : Bool) (request : Request) (b : Backing (Watched σ)) :
    (b.executeNow registry fetch request).2.store.seen =
      b.store.seen ++ request.seenNow registry fetch b.store.behind := by
  unfold Backing.executeNow Request.execute Request.seenNow
  rcases request.bind registry with e | bound
  · exact (List.append_nil _).symm
  · rcases hcall : Store.execute bound (fetch && bound.isInsert) b.store.behind with
      ⟨e | answer, after⟩
    all_goals simp [Store.execute, hcall, Backing.note, Backing.count]

theorem Move.seen (hmove : Move ctx stage m next) (h : m.WellFormed ctx.registry) :
    next.backing.store.seen = m.backing.store.seen ++ stage.seen ctx.registry := by
  cases hmove with
  | flush given reset c b =>
      obtain ⟨n, -, hwell⟩ := h
      exact flushWith_seen ctx reset hwell.sendable b
  | execute given request c b => exact seen_executeNow ctx.registry _ request b
  | number | statement | member | entrant | force | clear | adjust =>
      exact (List.append_nil _).symm

theorem Path.seen (hpath : Path ctx stages m last) (h : m.WellFormed ctx.registry) :
    last.backing.store.seen =
      m.backing.store.seen ++ stages.flatMap (Stage.seen ctx.registry) := by
  induction hpath with
  | nil => exact (List.append_nil _).symm
  | cons hmove _ ih =>
      rw [ih (hmove.wellFormed h), hmove.seen h, List.append_assoc, List.flatMap_cons]

/-- The calls of a move ask for keys exactly if the policy says so and their text is an insert. -/
theorem Move.fetch_of_mem_seen
    (hmove : Move ctx stage m next) (h : m.WellFormed ctx.registry) :
    ∀ sight ∈ stage.seen ctx.registry,
      sight.call.fetch = (m.coordinator.policy.fetchKeys && isInsertText sight.call.text) := by
  intro sight hmem
  cases hmove with
  | flush given reset c b =>
      obtain ⟨n, -, hwell⟩ := h
      obtain ⟨attempt, hattempt, rfl⟩ := List.mem_map.1 hmem
      have hmarked := hwell.marked_calls _ (group_mem_of_attempted hattempt)
      exact congrArg (c.policy.fetchKeys && ·) hmarked
  | execute given request c b =>
      simp only [Stage.seen, Request.seenNow] at hmem
      rcases hbind : request.bind ctx.registry with e | bound
      · simp [hbind] at hmem
      · rw [hbind, List.mem_singleton] at hmem
        subst hmem
        rcases (Store.execute bound _ b.store.behind).1 with e | answer <;> rfl
  | number | statement | member | entrant | force | clear | adjust => cases hmem

theorem Path.fetch_of_mem_seen
    (hpath : Path ctx stages m last) (h : m.WellFormed ctx.registry)
    (hnot : .adjust ∉ stages) :
    ∀ sight ∈ stages.flatMap (Stage.seen ctx.registry),
      sight.call.fetch = (m.coordinator.policy.fetchKeys && isInsertText sight.call.text) := by
  induction hpath with
  | nil => exact List.forall_mem_nil _
  | cons hmove _ ih =>
      rw [List.mem_cons, not_or] at hnot
      rw [List.flatMap_cons, List.forall_mem_append]
      refine ⟨hmove.fetch_of_mem_seen h, ?_⟩
      rw [← hmove.policy (Ne.symm hnot.1)]
      exact ih (hmove.wellFormed h) hnot.2

end Stages

/-! ## The setting in force -/

def Operation.fetchAfter (fetch : Bool) : Operation → Bool
  | .setFetchKeys (some choice) => choice
  | _ => fetch

/-- Whether keys are to be fetched after some operations: as it was chosen last, and as the policy
said in the beginning if no choice was made. -/
def fetchAfter (policy : Policy) (operations : List Operation) : Bool :=
  operations.foldl Operation.fetchAfter policy.fetchKeys

section Operations

variable [Store σ] {ctx : Context} {n : Nat} {c : Coordinator}

theorem fetchKeys_perform (ctx : Context) (operation : Operation) (c : Coordinator)
    (b : Backing σ) :
    (perform ctx operation c b).2.1.policy.fetchKeys =
      operation.fetchAfter c.policy.fetchKeys := by
  have hsame : operation.adjusts = false →
      (perform ctx operation c b).2.1.policy.fetchKeys = c.policy.fetchKeys := by
    intro hnot
    rw [policy_perform ctx hnot]
  cases operation with
  | submit | flush | clear => exact hsame rfl
  | setBatchSize size =>
      simp only [perform, setBatchSize]
      split <;> rfl
  | setFetchKeys choice => cases choice <;> rfl
  | setFlushOnMixed | takeKeys => rfl

/-- In an operation the store sees the calls of its stages, and they ask for keys as the policy
says in the beginning. -/
theorem WellFormed.seen_perform
    (h : c.WellFormed ctx.registry n) (hle : n ≤ c.requests) (operation : Operation)
    (b : Backing (Watched σ)) :
    (perform ctx operation c b).2.2.store.seen =
        b.store.seen ++ (Act.of ctx operation c b).seen ctx.registry ∧
      ∀ sight ∈ (Act.of ctx operation c b).seen ctx.registry,
        sight.call.fetch = (c.policy.fetchKeys && isInsertText sight.call.text) := by
  have hmoment : Moment.WellFormed ctx.registry ⟨false, c, b⟩ := ⟨n, ⟨hle, nofun⟩, h⟩
  obtain ⟨last, hpath⟩ := path_stages ctx false operation c b
  refine ⟨hpath.seen hmoment, ?_⟩
  rcases hadjusts : operation.adjusts
  · exact hpath.fetch_of_mem_seen hmoment (adjust_not_mem_stages ctx hadjusts c b)
  · have hnone : (Act.of ctx operation c b).seen ctx.registry = [] := by
      rw [Act.seen, Act.of, (stages_of_adjusts ctx hadjusts c b).1]
      rfl
    rw [hnone]
    exact List.forall_mem_nil _

end Operations

/-! ## Runs -/

/-- Which calls of a run ask for keys. -/
structure AsksForKeys [Store σ] (ctx : Context) (policy : Policy) (acts : List (Act (Watched σ)))
    (c : Coordinator) (b : Backing (Watched σ)) : Prop where
  /-- The policy says what was chosen last. -/
  setting : c.policy.fetchKeys = fetchAfter policy (acts.map Act.operation)
  seen : b.store.seen = acts.flatMap (Act.seen ctx.registry)
  /-- Each of them asks for keys exactly if they were to be fetched when its act began and the text
  that was sent is an insert. -/
  flags : ∀ before act after, acts = before ++ act :: after →
    ∀ sight ∈ act.seen ctx.registry, sight.call.fetch =
      (fetchAfter policy (before.map Act.operation) && isInsertText sight.call.text)
  /-- The groups that a flush would send are marked as every statement of their text is, not only
  as the one that began the group. -/
  members : ∀ group ∈ c.calls ctx.registry, ∀ statement : Statement,
    normalText statement.text = group.text → group.isInsert = statement.isInsert

section Runs

variable [Store σ] {ctx : Context} {elsewhere : σ → σ → Prop} {policy : Policy}
  {acts : List (Act (Watched σ))} {c : Coordinator} {b : Backing (Watched σ)}

theorem Annals.fetchKeys (h : Annals ctx elsewhere policy acts c b) :
    c.policy.fetchKeys = fetchAfter policy (acts.map Act.operation) := by
  induction h with
  | new => rfl
  | perform operation _ ih =>
      rw [fetchKeys_perform, ih, List.map_append, fetchAfter, fetchAfter, List.foldl_append]
      rfl
  | change _ _ _ _ ih => exact ih

theorem Annals.seen (h : Annals ctx elsewhere policy acts c b) :
    b.store.seen = acts.flatMap (Act.seen ctx.registry) := by
  induction h with
  | new b hseen => exact hseen
  | perform operation hrun ih =>
      obtain ⟨given, n, hn, hwell⟩ := hrun.wellFormed
      rw [(hwell.seen_perform hn.le operation _).1, ih, List.flatMap_append, List.flatMap_singleton]
  | change other _ hseen _ ih => exact hseen.trans ih

/-- The calls of each act ask for keys as it was chosen before. -/
theorem Annals.fetch_of_mem_seen (h : Annals ctx elsewhere policy acts c b) :
    ∀ before act after, acts = before ++ act :: after →
      ∀ sight ∈ act.seen ctx.registry, sight.call.fetch =
        (fetchAfter policy (before.map Act.operation) && isInsertText sight.call.text) := by
  intro before act after hacts
  obtain ⟨operation, d, begun, hrun, rfl⟩ := h.before hacts
  obtain ⟨given, n, hn, hwell⟩ := hrun.wellFormed
  rw [← hrun.fetchKeys]
  exact (hwell.seen_perform hn.le operation begun).2

/-- Every call of a run asks for keys exactly if they are to be fetched at that time and the text
that is sent is an insert.  A text is an insert exactly if its normal form is one, and this can be
read off its first six bytes behind the leading blanks. -/
theorem keys_asked_for_inserts (h : Annals ctx elsewhere policy acts c b) :
    AsksForKeys ctx policy acts c b ∧
      (∀ text, isInsertText (normalText text) = isInsertText text) ∧
      ∀ text, isInsertText text = true ↔
        ∃ head, leadingBytes? 6 (dropBlanks text.toList) = some head ∧
          head.map Char.toLower = insertWord := by
  refine ⟨?_, isInsertText_normalText, isInsertText_iff_leadingBytes⟩
  constructor
  case setting => exact h.fetchKeys
  case seen => exact h.seen
  case flags => exact h.fetch_of_mem_seen
  case members =>
    intro group hgroup statement htext
    obtain ⟨given, n, -, hwell⟩ := h.wellFormed
    exact (hwell.marked_calls group hgroup).isInsert htext

end Runs

/-- An insert is executed at once, two statements and a record write are buffered and flushed, and
in between it is chosen that no keys are to be fetched. -/
def choosing : List Operation :=
  [.submit (.statement ⟨"insert into a", []⟩) false,
    .submit (.statement ⟨"\n INSERT  into a", []⟩) true,
    .submit (.statement ⟨"inser t into a", []⟩) true, .flush false,
    .setFetchKeys (some false), .submit (.record (insertion "a" 0)) true, .flush true]

def chosen : List (Act (Watched Memory)) × Coordinator × Backing (Watched Memory) :=
  performActs (lettered []) choosing (.new {}) untouched

theorem keys_asked_for_inserts_of_chosen :
    AsksForKeys (lettered []) {} chosen.1 chosen.2.1 chosen.2.2 ∧
      chosen.2.2.store.seen.map (fun sight => (sight.call.text, sight.call.fetch)) =
        [("insert into a", true), ("INSERT into a", true), ("inser t into a", false),
          ("insert into a () values ()", false)] := by
  have hnew : Annals (lettered []) (fun _ _ => False) {} [] (.new {}) untouched :=
    .new untouched rfl
  exact ⟨(keys_asked_for_inserts (hnew.performActs choosing)).1, by decide⟩

end Coordinator

end Cascade
