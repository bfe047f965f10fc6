import Cascade.Proofs.Receipts

/-!
# The trace of a recording store

Whatever a recording store is asked, in whatever order and however often
failures are armed meanwhile, its record, the sizes of its batch calls, its
keys and the failures that have struck tell one story.  The record grows by what
each call has reached, every batch call has one stretch of it, a failure strikes
at the first attempt at its position, and the keys are numbered as the
statements that they were generated for.
-/

namespace Cascade.Memory

open Json

/-! ## What a store is asked -/

/-- What a recording store can be asked. -/
inductive Ask where
  | execute (statement : Statement) (fetch : Bool)
  | executeBatch (text : String) (sets : List (List Datum)) (fetch : Bool)
  | armAt (position : Nat)
  | armAfter (count : Nat)

/-- What happens to the failure that is armed, or to the statements of a call. -/
inductive Happening where
  /-- A failure is armed at a position, in place of one that was armed before. -/
  | armed (position : Nat)
  /-- A statement is about to take a position of the record; it is refused if a failure strikes. -/
  | attempted (position : Nat) (struck : Bool)
  deriving DecidableEq

/-- The attempt to record a statement. -/
def attempt (entry : Executed) (m : Memory) : Happening :=
  match m.record entry with
  | (.error _, _) => .attempted (m.executed.length + 1) true
  | (.ok (), _) => .attempted (m.executed.length + 1) false

/-- The attempts for the parameter sets of a batch call, until one of them is refused. -/
def attemptsOfSets (text : String) (batch : Nat) (wanted : Bool) :
    List (List Datum) → Memory → List Happening
  | [], _ => []
  | params :: rest, m =>
      m.attempt ⟨text, params, some batch⟩ ::
        match m.record ⟨text, params, some batch⟩ with
        | (.error _, _) => []
        | (.ok (), after) => attemptsOfSets text batch wanted rest (after.issueKey wanted).2

namespace Ask

def after : Ask → Memory → Memory
  | .execute statement fetch, m => (m.execute statement fetch).2
  | .executeBatch text sets fetch, m => (m.executeBatch text sets fetch).2
  | .armAt position, m => m.armAt position
  | .armAfter count, m => m.armAfter count

/-- What is answered: the keys that were generated, or the refusal. -/
def answer : Ask → Memory → Except StoreError (List Datum)
  | .execute statement fetch, m =>
      (m.execute statement fetch).1.map (fun result => result.key.toList)
  | .executeBatch text sets fetch, m => (m.executeBatch text sets fetch).1.map BatchResult.keys
  | .armAt _, _ | .armAfter _, _ => .ok []

def happenings : Ask → Memory → List Happening
  | .execute statement _, m => [m.attempt ⟨statement.text, statement.params, none⟩]
  | .executeBatch text sets fetch, m =>
      attemptsOfSets text m.batchSizes.length (fetch && isInsertText text) sets
        { m with batchSizes := m.batchSizes ++ [sets.length] }
  | .armAt position, _ => [.armed position]
  | .armAfter count, m => [.armed (m.executed.length + count)]

/-- Whether a key is wanted for each statement of a call. -/
def wanted : Ask → Bool
  | .execute statement fetch => fetch && statement.isInsert
  | .executeBatch text _ fetch => fetch && isInsertText text
  | .armAt _ | .armAfter _ => false

/-- The statements that are recorded, each with the key that is generated for it. -/
def receipts : Ask → Memory → List Receipt
  | .execute statement fetch, m =>
      match m.record ⟨statement.text, statement.params, none⟩ with
      | (.error _, _) => []
      | (.ok (), after) => [⟨statement, (after.issueKey (fetch && statement.isInsert)).1.head?⟩]
  | .executeBatch text sets fetch, m => receiptsOfCall text sets fetch m
  | .armAt _, _ | .armAfter _, _ => []

def size? : Ask → Option Nat
  | .executeBatch _ sets _ => some sets.length
  | .execute _ _ | .armAt _ | .armAfter _ => none

end Ask

def afterAll (asks : List Ask) (m : Memory) : Memory :=
  asks.foldl (fun m ask => ask.after m) m

/-- What is observed while several things are asked, one after the other. -/
def observed {α : Type} (observe : Ask → Memory → List α) : List Ask → Memory → List α
  | [], _ => []
  | ask :: rest, m => observe ask m ++ observed observe rest (ask.after m)

theorem afterAll_append (before later : List Ask) (m : Memory) :
    afterAll (before ++ later) m = afterAll later (afterAll before m) :=
  List.foldl_append

theorem afterAll_cons (ask : Ask) (later : List Ask) (m : Memory) :
    afterAll (ask :: later) m = afterAll later (ask.after m) :=
  rfl

/-! ## Failures -/

/-- A statement is refused where a failure is armed, which is not armed any more then, and recorded
elsewhere. -/
theorem record_cases (entry : Executed) (m : Memory) :
    (m.failAt = some (m.executed.length + 1) ∧
        m.record entry = (.error (refusal (m.executed.length + 1)), { m with failAt := none })) ∨
      (m.failAt ≠ some (m.executed.length + 1) ∧ m.record entry = (.ok (), m.recorded entry)) := by
  by_cases harmed : m.failAt = some (m.executed.length + 1)
  · exact Or.inl ⟨harmed, if_pos harmed⟩
  · exact Or.inr ⟨harmed, if_neg harmed⟩

/-- What may happen, from a length of the record and a failure that may be armed to others: the next
statement takes the next position, and it is refused exactly if a failure is armed there. -/
inductive Obeys : Nat → Option Nat → List Happening → Nat → Option Nat → Prop
  | nil (length : Nat) (armed : Option Nat) : Obeys length armed [] length armed
  | arm {length last : Nat} {armed still : Option Nat} {rest : List Happening} (position : Nat) :
      Obeys length (some position) rest last still →
      Obeys length armed (.armed position :: rest) last still
  | strike {length last : Nat} {still : Option Nat} {rest : List Happening} :
      Obeys length none rest last still →
      Obeys length (some (length + 1)) (.attempted (length + 1) true :: rest) last still
  | pass {length last : Nat} {armed still : Option Nat} {rest : List Happening} :
      armed ≠ some (length + 1) → Obeys (length + 1) armed rest last still →
      Obeys length armed (.attempted (length + 1) false :: rest) last still

namespace Obeys

variable {length middle last : Nat} {armed meanwhile still : Option Nat}
  {first second : List Happening}

theorem append (h : Obeys length armed first middle meanwhile)
    (h' : Obeys middle meanwhile second last still) :
    Obeys length armed (first ++ second) last still := by
  induction h with
  | nil => exact h'
  | arm position _ ih => exact .arm position (ih h')
  | strike _ ih => exact .strike (ih h')
  | pass hnot _ ih => exact .pass hnot (ih h')

theorem split (h : Obeys length armed (first ++ second) last still) :
    ∃ middle meanwhile, Obeys length armed first middle meanwhile ∧
      Obeys middle meanwhile second last still := by
  induction first generalizing length armed with
  | nil => exact ⟨length, armed, .nil _ _, h⟩
  | cons happening first ih =>
      cases h with
      | arm position h =>
          obtain ⟨middle, meanwhile, hfirst, hsecond⟩ := ih h
          exact ⟨middle, meanwhile, .arm position hfirst, hsecond⟩
      | strike h =>
          obtain ⟨middle, meanwhile, hfirst, hsecond⟩ := ih h
          exact ⟨middle, meanwhile, .strike hfirst, hsecond⟩
      | pass hnot h =>
          obtain ⟨middle, meanwhile, hfirst, hsecond⟩ := ih h
          exact ⟨middle, meanwhile, .pass hnot hfirst, hsecond⟩

end Obeys

theorem obeys_attempt (entry : Executed) (m : Memory) :
    Obeys m.executed.length m.failAt [m.attempt entry] (m.record entry).2.executed.length
      (m.record entry).2.failAt := by
  rcases m.record_cases entry with ⟨harmed, hrecord⟩ | ⟨hnot, hrecord⟩
  · rw [attempt, hrecord, harmed]
    exact .strike (.nil _ _)
  · rw [attempt, hrecord]
    simp only [recorded, List.length_append, List.length_singleton]
    exact .pass hnot (.nil _ _)

@[simp] theorem executed_issueKey (wanted : Bool) (m : Memory) :
    (m.issueKey wanted).2.executed = m.executed := by
  cases wanted <;> rfl

@[simp] theorem failAt_issueKey (wanted : Bool) (m : Memory) :
    (m.issueKey wanted).2.failAt = m.failAt := by
  cases wanted <;> rfl

@[simp] theorem batchSizes_issueKey (wanted : Bool) (m : Memory) :
    (m.issueKey wanted).2.batchSizes = m.batchSizes := by
  cases wanted <;> rfl

theorem obeys_attemptsOfSets
    (text : String) (batch : Nat) (wanted : Bool) (sets : List (List Datum)) (done : BatchResult)
    (m : Memory) :
    Obeys m.executed.length m.failAt (attemptsOfSets text batch wanted sets m)
      (executeSets text batch wanted sets done m).2.executed.length
      (executeSets text batch wanted sets done m).2.failAt := by
  induction sets generalizing done m with
  | nil => exact .nil _ _
  | cons params rest ih =>
      have hfirst := m.obeys_attempt ⟨text, params, some batch⟩
      simp only [executeSets, attemptsOfSets]
      rcases hrecord : m.record ⟨text, params, some batch⟩ with ⟨message | _, next⟩
      all_goals rw [hrecord] at hfirst
      · exact hfirst
      · have hrest := ih ⟨done.rowCounts ++ [1], done.keys ++ (next.issueKey wanted).1⟩
          (next.issueKey wanted).2
        rw [executed_issueKey, failAt_issueKey] at hrest
        exact hfirst.append hrest

theorem obeys_happenings (ask : Ask) (m : Memory) :
    Obeys m.executed.length m.failAt (ask.happenings m) (ask.after m).executed.length
      (ask.after m).failAt := by
  cases ask with
  | execute statement fetch =>
      have hattempt := m.obeys_attempt ⟨statement.text, statement.params, none⟩
      simp only [Ask.happenings, Ask.after, execute]
      rcases hrecord : m.record ⟨statement.text, statement.params, none⟩ with ⟨message | _, next⟩
      all_goals rw [hrecord] at hattempt
      · exact hattempt
      · simpa using hattempt
  | executeBatch text sets fetch =>
      exact obeys_attemptsOfSets text m.batchSizes.length (fetch && isInsertText text) sets ⟨[], []⟩
        { m with batchSizes := m.batchSizes ++ [sets.length] }
  | armAt position => exact .arm position (.nil _ _)
  | armAfter count => exact .arm _ (.nil _ _)

/-- Everything that happens obeys, from the first thing that is asked to the last. -/
theorem obeys_observed (asks : List Ask) (m : Memory) :
    Obeys m.executed.length m.failAt (observed Ask.happenings asks m)
      (afterAll asks m).executed.length (afterAll asks m).failAt := by
  induction asks generalizing m with
  | nil => exact .nil _ _
  | cons ask rest ih => exact (obeys_happenings ask m).append (ih (ask.after m))

/-! ## When a failure strikes -/

namespace Happening

def isRecord : Happening → Bool
  | .attempted _ false => true
  | .armed _ | .attempted _ true => false

def isStrike : Happening → Bool
  | .attempted _ true => true
  | .armed _ | .attempted _ false => false

/-- A failure that is armed at a position stays armed there. -/
def Leaves (position : Nat) : Happening → Prop
  | .armed _ => False
  | .attempted other _ => other ≠ position

end Happening

/-- A failure stands armed at a position: it was armed there, and since then nothing was armed and
the position was not attempted. -/
def Standing (position : Nat) (history : List Happening) : Prop :=
  ∃ before since, history = before ++ .armed position :: since ∧
    ∀ happening ∈ since, happening.Leaves position

theorem not_standing_nil (position : Nat) : ¬Standing position [] := by
  rintro ⟨before, since, heq, -⟩
  simp at heq

theorem standing_concat_iff {position : Nat} {history : List Happening} {happening : Happening} :
    Standing position (history ++ [happening]) ↔
      happening = .armed position ∨ Standing position history ∧ happening.Leaves position := by
  constructor
  · rintro ⟨before, since, heq, hleaves⟩
    rcases List.eq_nil_or_concat since with rfl | ⟨earlier, last, rfl⟩
    · obtain ⟨-, hlast⟩ := List.append_inj' heq rfl
      exact Or.inl (List.singleton_inj.1 hlast)
    · rw [List.concat_eq_append] at heq hleaves
      rw [← List.cons_append, ← List.append_assoc] at heq
      obtain ⟨rfl, hlast⟩ := List.append_inj' heq rfl
      rw [List.singleton_inj.1 hlast]
      exact Or.inr ⟨⟨before, earlier, rfl, fun other hmem => hleaves other (by simp [hmem])⟩,
        hleaves last (by simp)⟩
  · rintro (rfl | ⟨⟨before, since, rfl, hleaves⟩, hlast⟩)
    · exact ⟨history, [], rfl, List.forall_mem_nil _⟩
    · refine ⟨before, since ++ [happening], by simp, ?_⟩
      intro other hmem
      rcases List.mem_append.1 hmem with hmem | hmem
      · exact hleaves other hmem
      · rw [List.mem_singleton.1 hmem]
        exact hlast

namespace Obeys

variable {length last : Nat} {armed still : Option Nat} {history since : List Happening}

/-- The failure that is armed is the one that stands. -/
theorem armed_iff (h : Obeys 0 none history length armed) (position : Nat) :
    armed = some position ↔ Standing position history := by
  induction history using List.reverseRecOn generalizing length armed with
  | nil =>
      cases h
      simpa using not_standing_nil position
  | append_singleton history happening ih =>
      obtain ⟨middle, meanwhile, hfirst, hlast⟩ := h.split
      have hearlier := ih hfirst
      rw [standing_concat_iff, ← hearlier]
      cases hlast with
      | arm other hnil =>
          cases hnil
          simp [Happening.Leaves]
      | strike hnil =>
          cases hnil
          simp [Happening.Leaves]
      | pass hnot hnil =>
          cases hnil
          simp only [reduceCtorEq, false_or, Happening.Leaves]
          refine ⟨fun hsame => ⟨hsame, ?_⟩, fun hboth => hboth.1⟩
          rintro rfl
          exact hnot hsame

/-- The next statement is refused exactly if a failure stands armed at the position that it is about
to take, which is the one behind all that are recorded. -/
theorem attempted_iff
    {before later : List Happening} {position : Nat} {struck : Bool}
    (h : Obeys 0 none (before ++ .attempted position struck :: later) last still) :
    struck = true ↔ Standing position before := by
  obtain ⟨middle, meanwhile, hbefore, hlater⟩ := h.split
  rw [← hbefore.armed_iff]
  cases hlater with
  | strike => exact iff_of_true rfl rfl
  | pass hnot => exact iff_of_false Bool.false_ne_true hnot

theorem length_eq (h : Obeys length armed history last still) :
    last = length + history.countP Happening.isRecord := by
  induction h with
  | nil => rfl
  | arm position _ ih => simpa [Happening.isRecord] using ih
  | strike _ ih => simpa [Happening.isRecord] using ih
  | pass _ _ ih =>
      rw [ih, List.countP_cons_of_pos rfl]
      omega

theorem position_eq
    {before later : List Happening} {position : Nat} {struck : Bool}
    (h : Obeys 0 none (before ++ .attempted position struck :: later) last still) :
    position = before.countP Happening.isRecord + 1 := by
  obtain ⟨middle, meanwhile, hbefore, hlater⟩ := h.split
  have hlength := hbefore.length_eq
  cases hlater with
  | strike | pass => omega

/-- Until something is armed again, the failure that is armed strikes once at most, at its
position. -/
theorem strikes_cases (h : Obeys length armed since last still)
    (hno : ∀ position, .armed position ∉ since) :
    since.filter Happening.isStrike = [] ∨
      ∃ position, armed = some position ∧
        since.filter Happening.isStrike = [.attempted position true] := by
  induction h with
  | nil => exact Or.inl rfl
  | arm position => exact absurd List.mem_cons_self (hno position)
  | strike _ ih =>
      rcases ih (fun position hmem => hno position (List.mem_cons_of_mem _ hmem)) with
        hnone | ⟨position, hsome, -⟩
      · refine Or.inr ⟨_, rfl, ?_⟩
        rw [List.filter_cons_of_pos rfl, hnone]
      · cases hsome
  | pass _ _ ih =>
      rw [List.filter_cons_of_neg (by simp [Happening.isStrike])]
      exact ih (fun position hmem => hno position (List.mem_cons_of_mem _ hmem))

end Obeys

/-- A call is refused exactly if a failure strikes in it. -/
theorem refused_executeSets_iff
    (text : String) (batch : Nat) (wanted : Bool) (sets : List (List Datum)) (done : BatchResult)
    (m : Memory) :
    (∃ e, (executeSets text batch wanted sets done m).1 = .error e) ↔
      ∃ position, .attempted position true ∈ attemptsOfSets text batch wanted sets m := by
  induction sets generalizing done m with
  | nil => simp [executeSets, attemptsOfSets]
  | cons params rest ih =>
      simp only [executeSets, attemptsOfSets, attempt]
      rcases hrecord : m.record ⟨text, params, some batch⟩ with ⟨message | _, next⟩
      · simp
      · simp [ih]

theorem refused_iff (ask : Ask) (m : Memory) :
    (∃ e, ask.answer m = .error e) ↔ ∃ position, .attempted position true ∈ ask.happenings m := by
  cases ask with
  | execute statement fetch =>
      simp only [Ask.answer, Ask.happenings, execute, attempt]
      rcases hrecord : m.record ⟨statement.text, statement.params, none⟩ with ⟨message | _, next⟩
      all_goals simp [Except.map]
  | executeBatch text sets fetch =>
      have hsets := refused_executeSets_iff text m.batchSizes.length (fetch && isInsertText text)
        sets ⟨[], []⟩ { m with batchSizes := m.batchSizes ++ [sets.length] }
      rw [Ask.happenings, ← hsets, Ask.answer, executeBatch]
      rcases executeSets text m.batchSizes.length (fetch && isInsertText text) sets ⟨[], []⟩
        { m with batchSizes := m.batchSizes ++ [sets.length] } with ⟨e | answer, next⟩
      all_goals simp [Except.map]
  | armAt | armAfter => simp [Ask.answer, Ask.happenings]

/-! ## What is recorded -/

/-- A batch call records its first parameter sets, all of them if it is accepted; if it is refused,
the error counts those that are recorded. -/
theorem executed_executeSets
    (text : String) (batch : Nat) (wanted : Bool) (sets : List (List Datum)) (done : BatchResult)
    (m : Memory) :
    ∃ count,
      (executeSets text batch wanted sets done m).2.executed =
          m.executed ++ (sets.take count).map (fun params => ⟨text, params, some batch⟩) ∧
        (executeSets text batch wanted sets done m).2.batchSizes = m.batchSizes ∧
        (∀ answer, (executeSets text batch wanted sets done m).1 = .ok answer →
          count = sets.length) ∧
        ∀ e, (executeSets text batch wanted sets done m).1 = .error e →
          e.succeeded = done.rowCounts.length + count ∧ count < sets.length := by
  induction sets generalizing done m with
  | nil =>
      refine ⟨0, (List.append_nil _).symm, rfl, fun _ _ => rfl, ?_⟩
      rintro _ ⟨⟩
  | cons params rest ih =>
      simp only [executeSets]
      rcases m.record_cases ⟨text, params, some batch⟩ with ⟨-, hrecord⟩ | ⟨-, hrecord⟩
      · simp only [hrecord]
        refine ⟨0, (List.append_nil _).symm, trivial, ?_, ?_⟩
        · rintro _ ⟨⟩
        · rintro _ ⟨⟩
          exact ⟨(Nat.add_zero _).symm, Nat.succ_pos _⟩
      · simp only [hrecord]
        obtain ⟨count, hexecuted, hsizes, haccepted, hrefused⟩ :=
          ih ⟨done.rowCounts ++ [1], done.keys ++
              ((m.recorded ⟨text, params, some batch⟩).issueKey wanted).1⟩
            ((m.recorded ⟨text, params, some batch⟩).issueKey wanted).2
        rw [batchSizes_issueKey] at hsizes
        rw [executed_issueKey] at hexecuted
        refine ⟨count + 1, ?_, hsizes, ?_, ?_⟩
        · rw [hexecuted, recorded, List.take_succ_cons, List.map_cons, List.append_assoc]
          rfl
        · intro answer hok
          rw [haccepted answer hok, List.length_cons]
        · intro e herror
          obtain ⟨hcount, hlt⟩ := hrefused e herror
          rw [List.length_append, List.length_singleton] at hcount
          rw [List.length_cons]
          omega

theorem executed_executeBatch
    (text : String) (sets : List (List Datum)) (fetch : Bool) (m : Memory) :
    ∃ count,
      ((Ask.executeBatch text sets fetch).after m).executed = m.executed ++
          (sets.take count).map (fun params => ⟨text, params, some m.batchSizes.length⟩) ∧
        ((Ask.executeBatch text sets fetch).after m).batchSizes =
          m.batchSizes ++ [sets.length] ∧
        (∀ keys, (Ask.executeBatch text sets fetch).answer m = .ok keys → count = sets.length) ∧
        ∀ e, (Ask.executeBatch text sets fetch).answer m = .error e →
          count = e.succeeded ∧ count < sets.length := by
  obtain ⟨count, hexecuted, hsizes, haccepted, hrefused⟩ := executed_executeSets text
    m.batchSizes.length (fetch && isInsertText text) sets ⟨[], []⟩
    { m with batchSizes := m.batchSizes ++ [sets.length] }
  refine ⟨count, hexecuted, hsizes, ?_, ?_⟩
  all_goals
    intro result hresult
    simp only [Ask.answer, executeBatch] at hresult
    rcases hcall : executeSets text m.batchSizes.length (fetch && isInsertText text) sets
      ⟨[], []⟩ { m with batchSizes := m.batchSizes ++ [sets.length] } with ⟨e | answer, next⟩
    all_goals
      rw [hcall] at hresult haccepted hrefused
      cases hresult
  · exact haccepted answer rfl
  · obtain ⟨hcount, hlt⟩ := hrefused _ rfl
    exact ⟨(hcount.trans (Nat.zero_add _)).symm, hlt⟩

theorem batchSizes_after (ask : Ask) (m : Memory) :
    (ask.after m).batchSizes = m.batchSizes ++ ask.size?.toList := by
  cases ask with
  | execute statement fetch =>
      simp only [Ask.after, execute]
      rcases m.record_cases ⟨statement.text, statement.params, none⟩ with
        ⟨-, hrecord⟩ | ⟨-, hrecord⟩
      all_goals simp [hrecord, recorded, Ask.size?]
  | executeBatch text sets fetch =>
      obtain ⟨count, -, hsizes, -, -⟩ := executed_executeBatch text sets fetch m
      exact hsizes
  | armAt | armAfter => exact (List.append_nil _).symm

theorem batchSizes_afterAll (asks : List Ask) (m : Memory) :
    (afterAll asks m).batchSizes = m.batchSizes ++ asks.filterMap Ask.size? := by
  induction asks generalizing m with
  | nil => exact (List.append_nil _).symm
  | cons ask rest ih =>
      rw [afterAll_cons, ih, batchSizes_after, List.append_assoc]
      cases hsize : ask.size? <;> simp [hsize]

/-- The record has grown by some entries, whose batch numbers ascend and are those of batch calls
that were made meanwhile. -/
structure Grows (m after : Memory) : Prop where
  sizes : m.batchSizes.length ≤ after.batchSizes.length
  executed : ∃ entries, after.executed = m.executed ++ entries ∧
    (∀ number ∈ entries.filterMap Executed.batch,
      m.batchSizes.length ≤ number ∧ number < after.batchSizes.length) ∧
    (entries.filterMap Executed.batch).Pairwise (· ≤ ·)

theorem Grows.refl (m : Memory) : m.Grows m :=
  ⟨Nat.le_refl _, [], (List.append_nil _).symm, List.forall_mem_nil _, List.Pairwise.nil⟩

theorem Grows.trans {m next after : Memory} (h : m.Grows next) (h' : next.Grows after) :
    m.Grows after := by
  obtain ⟨hsizes, entries, hentries, hnumbers, hsorted⟩ := h
  obtain ⟨hlater, others, hothers, hnumbers', hsorted'⟩ := h'
  refine ⟨Nat.le_trans hsizes hlater, entries ++ others, ?_, ?_, ?_⟩
  · rw [hothers, hentries, List.append_assoc]
  · intro number hmem
    rw [List.filterMap_append] at hmem
    rcases List.mem_append.1 hmem with hmem | hmem
    · exact ⟨(hnumbers number hmem).1, Nat.lt_of_lt_of_le (hnumbers number hmem).2 hlater⟩
    · exact ⟨Nat.le_trans hsizes (hnumbers' number hmem).1, (hnumbers' number hmem).2⟩
  · rw [List.filterMap_append]
    refine List.pairwise_append.2 ⟨hsorted, hsorted', ?_⟩
    intro number hmem other hother
    exact Nat.le_of_lt (Nat.lt_of_lt_of_le (hnumbers number hmem).2 (hnumbers' other hother).1)

/-- What is asked adds entries of one batch number at most, that of the batch call it makes. -/
theorem executed_after (ask : Ask) (m : Memory) :
    ∃ entries, (ask.after m).executed = m.executed ++ entries ∧
      ∀ entry ∈ entries, entry.batch = ask.size?.map (fun _ => m.batchSizes.length) := by
  cases ask with
  | execute statement fetch =>
      simp only [Ask.after, execute]
      rcases m.record_cases ⟨statement.text, statement.params, none⟩ with
        ⟨-, hrecord⟩ | ⟨-, hrecord⟩
      · exact ⟨[], by simp [hrecord], List.forall_mem_nil _⟩
      · refine ⟨[⟨statement.text, statement.params, none⟩], by simp [hrecord, recorded], ?_⟩
        exact List.forall_mem_singleton.2 rfl
  | executeBatch text sets fetch =>
      obtain ⟨count, hexecuted, -, -, -⟩ := executed_executeBatch text sets fetch m
      refine ⟨_, hexecuted, ?_⟩
      intro entry hmem
      obtain ⟨params, -, rfl⟩ := List.mem_map.1 hmem
      rfl
  | armAt | armAfter => exact ⟨[], (List.append_nil _).symm, List.forall_mem_nil _⟩

theorem grows_after (ask : Ask) (m : Memory) : m.Grows (ask.after m) := by
  obtain ⟨entries, hexecuted, hbatch⟩ := executed_after ask m
  have hsizes := congrArg List.length (batchSizes_after ask m)
  rw [List.length_append] at hsizes
  have hnumbers : ∀ number ∈ entries.filterMap Executed.batch,
      number = m.batchSizes.length ∧ number < (ask.after m).batchSizes.length := by
    intro number hmem
    obtain ⟨entry, hentry, hnumber⟩ := List.mem_filterMap.1 hmem
    rw [hbatch entry hentry, Option.map_eq_some_iff] at hnumber
    obtain ⟨size, hsize, rfl⟩ := hnumber
    rw [hsize, Option.toList_some, List.length_singleton] at hsizes
    exact ⟨rfl, by omega⟩
  refine ⟨by omega, entries, hexecuted, ?_, ?_⟩
  · intro number hmem
    obtain ⟨hsame, hlt⟩ := hnumbers number hmem
    exact ⟨Nat.le_of_eq hsame.symm, hlt⟩
  · refine List.pairwise_of_forall_mem_list (fun number hmem other hother => ?_)
    exact Nat.le_of_eq ((hnumbers number hmem).1.trans (hnumbers other hother).1.symm)

theorem grows_afterAll (asks : List Ask) (m : Memory) : m.Grows (afterAll asks m) := by
  induction asks generalizing m with
  | nil => exact .refl m
  | cons ask rest ih => exact (grows_after ask m).trans (ih (ask.after m))

/-! ## Keys -/

theorem adds_after (ask : Ask) (m : Memory) : Adds (ask.receipts m) m (ask.after m) := by
  cases ask with
  | execute statement fetch =>
      simp only [Ask.after, Ask.receipts, execute]
      rcases hrecord : m.record ⟨statement.text, statement.params, none⟩ with ⟨message | _, next⟩
      · exact adds_of_refused hrecord
      · exact adds_of_recorded hrecord (fetch && statement.isInsert)
  | executeBatch text sets fetch => exact adds_executeBatch text sets fetch m
  | armAt | armAfter => exact .of_eq rfl rfl

theorem adds_afterAll (asks : List Ask) (m : Memory) :
    Adds (observed Ask.receipts asks m) m (afterAll asks m) := by
  induction asks generalizing m with
  | nil => exact .of_eq rfl rfl
  | cons ask rest ih => exact (adds_after ask m).append (ih (ask.after m))

theorem keyed_receiptsOfSets
    (text : String) (batch : Nat) (wanted : Bool) (sets : List (List Datum)) (m : Memory) :
    ∀ receipt ∈ receiptsOfSets text batch wanted sets m, receipt.key.isSome = wanted := by
  induction sets generalizing m with
  | nil => exact List.forall_mem_nil _
  | cons params rest ih =>
      simp only [receiptsOfSets]
      rcases hrecord : m.record ⟨text, params, some batch⟩ with ⟨message | _, next⟩
      · exact List.forall_mem_nil _
      · refine List.forall_mem_cons.2 ⟨?_, ih _⟩
        cases wanted <;> rfl

theorem keyed_receipts (ask : Ask) (m : Memory) :
    ∀ receipt ∈ ask.receipts m, receipt.key.isSome = ask.wanted := by
  cases ask with
  | execute statement fetch =>
      simp only [Ask.receipts]
      rcases hrecord : m.record ⟨statement.text, statement.params, none⟩ with ⟨message | _, next⟩
      · exact List.forall_mem_nil _
      · refine List.forall_mem_singleton.2 ?_
        cases hwanted : fetch && statement.isInsert <;> simp [issueKey, Ask.wanted, hwanted]
  | executeBatch text sets fetch => exact keyed_receiptsOfSets _ _ _ _ _
  | armAt | armAfter => exact List.forall_mem_nil _

/-- What is accepted is answered with the keys of what was recorded. -/
theorem keys_of_answer {ask : Ask} {m : Memory} {keys : List Datum} (h : ask.answer m = .ok keys) :
    keys = (ask.receipts m).filterMap Receipt.key := by
  cases ask with
  | execute statement fetch =>
      simp only [Ask.answer, Ask.receipts, execute] at h ⊢
      rcases hrecord : m.record ⟨statement.text, statement.params, none⟩ with ⟨message | _, next⟩
      all_goals
        rw [hrecord] at h
        cases h
      cases hkey : (next.issueKey (fetch && statement.isInsert)).1.head? <;> simp [hkey]
  | executeBatch text sets fetch =>
      simp only [Ask.answer, executeBatch] at h
      rcases hcall : executeSets text m.batchSizes.length (fetch && isInsertText text) sets
        ⟨[], []⟩ { m with batchSizes := m.batchSizes ++ [sets.length] } with ⟨e | answer, next⟩
      all_goals
        rw [hcall] at h
        cases h
      exact (receiptsOfSets_of_ok hcall).2.2
  | armAt | armAfter =>
      cases h
      rfl

/-! ## The trace -/

/-- The batch call that was made in a state has one stretch of a record for itself: its first
parameter sets, as many as the answer tells. -/
def HasStretch (text : String) (sets : List (List Datum)) (fetch : Bool) (m last : Memory) : Prop :=
  last.batchSizes[m.batchSizes.length]? = some sets.length ∧
    ∃ count front back,
      last.executed = front ++
        (sets.take count).map (fun params => ⟨text, params, some m.batchSizes.length⟩) ++ back ∧
      (∀ entry ∈ front ++ back, entry.batch ≠ some m.batchSizes.length) ∧
      (∀ keys, (Ask.executeBatch text sets fetch).answer m = .ok keys → count = sets.length) ∧
      ∀ e, (Ask.executeBatch text sets fetch).answer m = .error e →
        count = e.succeeded ∧ count < sets.length

theorem hasStretch_executeBatch
    (text : String) (sets : List (List Datum)) (fetch : Bool) (before later : List Ask) :
    HasStretch text sets fetch (afterAll before {})
      (afterAll (before ++ .executeBatch text sets fetch :: later) {}) := by
  rw [afterAll_append, afterAll_cons]
  have hbefore := (grows_afterAll before {}).executed
  generalize afterAll before {} = m at hbefore ⊢
  obtain ⟨front, hfront, hfirst, -⟩ := hbefore
  obtain ⟨count, hexecuted, hsizes, haccepted, hrefused⟩ := executed_executeBatch text sets fetch m
  obtain ⟨back, hback, hlast, -⟩ :=
    (grows_afterAll later ((Ask.executeBatch text sets fetch).after m)).executed
  refine ⟨?_, count, front, back, ?_, ?_, haccepted, hrefused⟩
  · rw [batchSizes_afterAll, hsizes, List.append_assoc, List.getElem?_append_right (Nat.le_refl _),
      Nat.sub_self]
    rfl
  · rw [hback, hexecuted, hfront]
    rfl
  · intro entry hmem hsame
    rcases List.mem_append.1 hmem with hmem | hmem
    · have hlt := (hfirst _ (List.mem_filterMap.2 ⟨entry, hmem, hsame⟩)).2
      exact Nat.lt_irrefl _ hlt
    · have hle := (hlast _ (List.mem_filterMap.2 ⟨entry, hmem, hsame⟩)).1
      rw [hsizes, List.length_append, List.length_singleton] at hle
      exact Nat.not_succ_le_self _ hle

/-- What is told of a new recording store after several things were asked of it. -/
structure Consistent (asks : List Ask) : Prop where
  grows : ∀ more, (afterAll asks {}).executed <+: (afterAll (asks ++ more) {}).executed
  /-- The batch numbers in the record never decrease, and each is that of a batch call. -/
  numbers : ((afterAll asks {}).executed.filterMap Executed.batch).Pairwise (· ≤ ·) ∧
    ∀ number ∈ (afterAll asks {}).executed.filterMap Executed.batch,
      number < (afterAll asks {}).batchSizes.length
  /-- The sizes of the batch calls are listed in the order of the calls. -/
  sizes : (afterAll asks {}).batchSizes = asks.filterMap Ask.size?
  stretch : ∀ before text sets fetch later,
    asks = before ++ .executeBatch text sets fetch :: later →
    HasStretch text sets fetch (afterAll before {}) (afterAll asks {})
  /-- Every statement that is attempted is recorded, unless a failure strikes. -/
  attempts : (afterAll asks {}).executed.length =
    (observed Ask.happenings asks {}).countP Happening.isRecord
  /-- A statement that is attempted is about to take the next position, and a failure strikes
  exactly if it stands armed there. -/
  strikes : ∀ before position struck later,
    observed Ask.happenings asks {} = before ++ .attempted position struck :: later →
      position = before.countP Happening.isRecord + 1 ∧
        (struck = true ↔ Standing position before)
  /-- Until another one is armed, a failure strikes once at most, at its position. -/
  once : ∀ before position since later,
    observed Ask.happenings asks {} = before ++ .armed position :: since ++ later →
      (∀ other, .armed other ∉ since) →
      since.filter Happening.isStrike = [] ∨
        since.filter Happening.isStrike = [.attempted position true]
  /-- What is asked is refused exactly if a failure strikes meanwhile. -/
  refused : ∀ before ask later, asks = before ++ ask :: later →
    ((∃ e, ask.answer (afterAll before {}) = .error e) ↔
      ∃ position, .attempted position true ∈ ask.happenings (afterAll before {}))
  /-- The statements that are recorded have the keys 1, 2, 3, … in the order of the record. -/
  keys : (observed Ask.receipts asks {}).map Receipt.statement = (afterAll asks {}).log ∧
    (observed Ask.receipts asks {}).filterMap Receipt.key =
      (List.range' 1 (afterAll asks {}).keysIssued).map Datum.ofNat
  /-- Exactly the inserts of calls that fetch keys have one, and an answer lists those of its
  call. -/
  keyed : ∀ before ask later, asks = before ++ ask :: later →
    (∀ receipt ∈ ask.receipts (afterAll before {}), receipt.key.isSome = ask.wanted) ∧
      ∀ keys, ask.answer (afterAll before {}) = .ok keys →
        keys = (ask.receipts (afterAll before {})).filterMap Receipt.key

/-- The trace of a recording store is consistent, whatever it is asked. -/
theorem trace_consistent (asks : List Ask) : Consistent asks := by
  obtain ⟨entries, hentries, hnumbers, hsorted⟩ := (grows_afterAll asks {}).executed
  have hrecord : (afterAll asks {}).executed = entries := hentries
  have hobeys : Obeys 0 none (observed Ask.happenings asks {}) _ _ := obeys_observed asks {}
  have hadds := adds_afterAll asks {}
  constructor
  case grows =>
    intro more
    obtain ⟨others, hothers, -, -⟩ := (grows_afterAll more (afterAll asks {})).executed
    rw [afterAll_append]
    exact ⟨others, hothers.symm⟩
  case numbers =>
    rw [hrecord]
    exact ⟨hsorted, fun number hmem => (hnumbers number hmem).2⟩
  case sizes => exact batchSizes_afterAll asks {}
  case stretch =>
    rintro before text sets fetch later rfl
    exact hasStretch_executeBatch text sets fetch before later
  case attempts => exact hobeys.length_eq.trans (Nat.zero_add _)
  case strikes =>
    intro before position struck later heq
    rw [heq] at hobeys
    exact ⟨hobeys.position_eq, hobeys.attempted_iff⟩
  case once =>
    intro before position since later heq hno
    rw [heq] at hobeys
    obtain ⟨_, _, hfirst, -⟩ := hobeys.split
    obtain ⟨_, _, -, hsince⟩ := hfirst.split
    cases hsince with
    | arm _ hsince =>
        rcases hsince.strikes_cases hno with hnone | ⟨other, hsome, hone⟩
        · exact Or.inl hnone
        · cases hsome
          exact Or.inr hone
  case refused => exact fun before ask later _ => refused_iff ask _
  case keys => exact ⟨hadds.log.symm, hadds.keys.symm⟩
  case keyed => exact fun before ask later _ => ⟨keyed_receipts ask _, fun keys => keys_of_answer⟩

end Cascade.Memory
