import Mathlib.Data.List.Nodup
import Cascade.Proofs.Conservation
import Cascade.Proofs.Squeezing
import Cascade.Proofs.Tenure

/-!
# Literals in statement texts

A statement that is buffered reaches the store in normal form; one that is
executed at once reaches it as it is.  The normal form squeezes every stretch
of blanks, also one that stands between quotes.  So it says the same as the
text exactly if no literal of the text has a blank that is not a single space.
-/

namespace Cascade

namespace Text

def quote : Char := '\x27'

/-- What is kept of a text when it is read from inside or outside a literal: the literals with their
quotes, and outside of them the characters that satisfy `keep`.  A literal that is not closed ends
with the text. -/
def kept (keep : Char → Bool) : Bool → List Char → List Char
  | _, [] => []
  | inside, c :: rest =>
      if c = quote then c :: kept keep (!inside) rest
      else if inside || keep c then c :: kept keep inside rest
      else kept keep inside rest

/-- The literals of a text with their quotes, one after the other. -/
def literals (text : String) : String :=
  String.ofList (kept (fun _ => false) false text.toList)

/-- A text without the blanks outside its literals. -/
def unspaced (text : String) : String :=
  String.ofList (kept (fun c => !isBlank c) false text.toList)

/-- Whether a text goes on with a character that is not blank. -/
def goesOn : List Char → Bool
  | [] => false
  | c :: _ => !isBlank c

/-- Whether every blank in a literal is a space that neither ends the text nor stands before another
blank, when the text is read from inside or outside a literal. -/
def tightFrom : Bool → List Char → Bool
  | _, [] => true
  | inside, c :: rest =>
      if c = quote then tightFrom (!inside) rest
      else (!(inside && isBlank c) || (c == ' ' && goesOn rest)) && tightFrom inside rest

/-- Every blank in a literal is a single space. -/
def Tight (text : String) : Prop :=
  tightFrom false text.toList = true

instance (text : String) : Decidable (Tight text) :=
  inferInstanceAs (Decidable (_ = true))

/-! ## What squeezing keeps -/

@[simp] theorem isBlank_quote : isBlank quote = false := by
  decide

theorem space_ne_quote : ' ' ≠ quote := by
  decide

theorem ne_quote_of_isBlank {c : Char} (h : isBlank c = true) : c ≠ quote := by
  rintro rfl
  simp at h

section Kept

variable {keep : Char → Bool}

theorem kept_blank {c : Char} (hkeep : keep c = false) (hblank : isBlank c = true)
    (chars : List Char) : kept keep false (c :: chars) = kept keep false chars := by
  simp [kept, ne_quote_of_isBlank hblank, hkeep]

/-- Outside a literal it does not matter whether a word has ended. -/
theorem kept_resumed_gap (hkeep : ∀ c, isBlank c = true → keep c = false) (chars : List Char) :
    kept keep false (resumed true chars) = kept keep false (resumed false chars) := by
  cases chars with
  | nil => rfl
  | cons c rest =>
      by_cases h : isBlank c
      · simp [resumed, h]
      · simp [resumed, h, kept_blank (hkeep ' ' isBlank_space)]

theorem kept_begun (hkeep : ∀ c, isBlank c = true → keep c = false) (chars : List Char) :
    kept keep false (begun chars) = kept keep false (resumed false chars) := by
  induction chars with
  | nil => rfl
  | cons c rest ih =>
      by_cases h : isBlank c
      · simp [begun, resumed, h, ih, kept_resumed_gap hkeep]
      · simp [begun, resumed, h]

/-- Squeezing writes at most one character more than there is, and this one in a literal. -/
theorem length_kept_resumed
    (hkeep : ∀ c, isBlank c = true → keep c = false) (inside gap : Bool) (chars : List Char) :
    (kept keep inside (resumed gap chars)).length ≤
      (kept keep inside chars).length + (gap && inside).toNat := by
  induction chars generalizing inside gap with
  | nil => simp [resumed, kept]
  | cons c rest ih =>
      by_cases hblank : isBlank c
      · have hnext := ih inside true
        have hquote := ne_quote_of_isBlank hblank
        cases inside
        · simpa [resumed, hblank, kept, hquote, hkeep c hblank] using hnext
        · simp only [resumed, hblank, kept, hquote, Bool.true_or, Bool.and_true, Bool.toNat_true,
            if_true, if_false, List.length_cons] at hnext ⊢
          omega
      · have hword : (kept keep inside (c :: resumed false rest)).length ≤
            (kept keep inside (c :: rest)).length := by
          by_cases hquote : c = quote
          · simpa [kept, hquote] using ih (!inside) false
          · by_cases hkept : inside || keep c
            · simpa [kept, hquote, hkept] using ih inside false
            · simpa [kept, hquote, hkept] using ih inside false
        cases gap
        · simpa [resumed, hblank] using hword
        · cases inside
          · simpa [resumed, hblank, kept_blank (hkeep ' ' isBlank_space)] using hword
          · simpa [resumed, hblank, kept, space_ne_quote] using hword

/-- Behind a gap a literal goes on with a space, if it goes on at all. -/
theorem kept_resumed_eq_cons
    {c : Char} {chars others : List Char} (h : kept keep true (resumed true chars) = c :: others) :
    c = ' ' := by
  rw [resumed_gap] at h
  split at h
  · cases h
  · simp only [kept, space_ne_quote, if_false, Bool.true_or, if_true, List.cons.injEq] at h
    exact h.1.symm

/-- A space before a word is written as it stands. -/
theorem resumed_of_goesOn {chars : List Char} (h : goesOn chars = true) :
    resumed true chars = ' ' :: resumed false chars := by
  cases chars with
  | nil => cases h
  | cons c rest =>
      have hblank : isBlank c = false := by simpa [goesOn] using h
      simp [resumed, hblank]

/-- A stretch of blanks in a literal, or one that ends it, is not kept if it is not one space. -/
theorem kept_resumed_ne
    (hkeep : ∀ c, isBlank c = true → keep c = false) {c : Char} {chars : List Char}
    (h : ¬(c = ' ' ∧ goesOn chars = true)) :
    kept keep true (resumed true chars) ≠ c :: kept keep true chars := by
  intro hsame
  have hspace := kept_resumed_eq_cons hsame
  cases chars with
  | nil => cases hsame
  | cons d rest =>
      have hblank : isBlank d = true := by
        by_contra hnot
        exact h ⟨hspace, by simpa [goesOn] using hnot⟩
      have hlength := length_kept_resumed hkeep true true rest
      have hcount := congrArg List.length hsame
      simp only [resumed, hblank, kept, ne_quote_of_isBlank hblank, if_true, if_false, Bool.true_or,
        List.length_cons, Bool.and_self, Bool.toNat_true] at hcount hlength
      omega

/-- Squeezing keeps the literals of a text, and what is kept besides them, exactly if every blank in
a literal is a single space. -/
theorem kept_resumed_iff
    (hkeep : ∀ c, isBlank c = true → keep c = false) (inside : Bool) (chars : List Char) :
    kept keep inside (resumed false chars) = kept keep inside chars ↔
      tightFrom inside chars = true := by
  induction chars generalizing inside with
  | nil => simp [resumed, tightFrom]
  | cons c rest ih =>
      by_cases hquote : c = quote
      · subst hquote
        simpa [resumed, kept, tightFrom] using ih (!inside)
      by_cases hblank : isBlank c
      · have hresumed : resumed false (c :: rest) = resumed true rest := by
          simp [resumed, hblank]
        rw [hresumed]
        cases inside
        · rw [kept_resumed_gap hkeep, kept_blank (hkeep c hblank) hblank]
          simpa [tightFrom, hquote] using ih false
        · have hkept : kept keep true (c :: rest) = c :: kept keep true rest := by
            simp [kept, hquote]
          rw [hkept]
          by_cases hsingle : c = ' ' ∧ goesOn rest = true
          · obtain ⟨rfl, hgoes⟩ := hsingle
            rw [resumed_of_goesOn hgoes]
            simpa [kept, hquote, tightFrom, hgoes] using ih true
          · have hnot : tightFrom true (c :: rest) ≠ true := by
              intro htight
              simp only [tightFrom, hquote, hblank, if_false, Bool.and_self, Bool.not_true,
                Bool.false_or, Bool.and_eq_true, beq_iff_eq] at htight
              exact hsingle htight.1
            exact iff_of_false (kept_resumed_ne hkeep hsingle) hnot
      · have hword : tightFrom inside (c :: rest) = tightFrom inside rest := by
          simp [tightFrom, hquote, hblank]
        rw [hword, ← ih inside]
        by_cases hkept : inside || keep c
        · simp [resumed, hblank, kept, hquote, hkept]
        · simp [resumed, hblank, kept, hquote, hkept]

end Kept

end Text

open Text

theorem literals_normalText_iff (text : String) :
    literals (normalText text) = literals text ↔ Tight text := by
  have hkeep : ∀ c, isBlank c = true → (fun _ : Char => false) c = false := fun _ _ => rfl
  rw [literals, literals, normalText, toList_squeeze, kept_begun hkeep, String.ofList_inj]
  exact kept_resumed_iff hkeep false text.toList

theorem unspaced_normalText_iff (text : String) :
    unspaced (normalText text) = unspaced text ↔ Tight text := by
  have hkeep : ∀ c, isBlank c = true → (fun c => !isBlank c) c = false := by
    intro c h
    simp [h]
  rw [unspaced, unspaced, normalText, toList_squeeze, kept_begun hkeep, String.ofList_inj]
  exact kept_resumed_iff hkeep false text.toList

/-- Two texts with one normal form, the first of them tight, have the same literals exactly if the
second is tight. -/
theorem literals_eq_iff_of_normalText_eq
    {first second : String} (hnormal : normalText first = normalText second)
    (htight : Tight first) : literals second = literals first ↔ Tight second := by
  rw [← (literals_normalText_iff first).2 htight, hnormal, ← literals_normalText_iff second]
  exact eq_comm

/-! ## Statements on their way to the store -/

/-- The call that was attempted holds the parcel of a request. -/
def Attempt.Carries (id : RequestId) (attempt : Attempt) : Prop :=
  ∃ parcel ∈ attempt.group.parcels, parcel.origin = some id

namespace Coordinator

variable {σ : Type} [Store σ] {ctx : Context} {earlier : List Seen}
  {history : List (Stage (Watched σ))} {m : Moment (Watched σ)}

theorem Tally.parcel?_of_origin
    (h : Tally ctx earlier history m) {id : RequestId} {request : Request}
    (hmem : (id, request) ∈ accepted history) {parcel : Parcel}
    (hparcel : parcel ∈ acceptedParcels ctx.registry history) (horigin : parcel.origin = some id) :
    request.parcel? ctx.registry id = some parcel := by
  obtain ⟨n, -, harrived⟩ := h.numbered
  obtain ⟨entry, hentry, hfound⟩ := List.mem_filterMap.1 hparcel
  have hid : entry.1 = id := by
    rw [origin_of_parcel? hfound] at horigin
    exact Option.some.inj horigin
  have hsame : entry = (id, request) :=
    List.inj_on_of_nodup_map harrived.nodup hentry hmem hid
  rw [hsame] at hfound
  exact hfound

/-- A statement that was buffered is sent under its normal form. -/
theorem Tally.text_of_carries
    (h : Tally ctx earlier history m) {id : RequestId} {statement : Statement}
    (hmem : (id, .statement statement) ∈ accepted history) {attempt : Attempt}
    (hattempt : attempt ∈ attempts ctx.registry history) (hcarries : attempt.Carries id) :
    attempt.group.text = normalText statement.text := by
  obtain ⟨parcel, hparcel, horigin⟩ := hcarries
  have hfound := h.parcel?_of_origin hmem (h.mem_acceptedParcels_of_sent hattempt hparcel) horigin
  have hsame : statement.parcel (some id) = parcel := Option.some.inj hfound
  rw [← StatementGroup.text_of_mem_parcels hparcel, ← hsame]
  rfl

theorem Tally.seen_of_attempt
    (h : Tally ctx earlier history m) {attempt : Attempt}
    (hattempt : attempt ∈ attempts ctx.registry history) :
    ∃ fetch, attempt.seen fetch ∈ m.backing.store.seen := by
  obtain ⟨stage, hstage, hmade⟩ := List.mem_flatMap.1 hattempt
  cases stage with
  | flush reset c b =>
      have hcall : attempt.seen c.policy.fetchKeys ∈
          history.flatMap (Stage.calls ctx.registry) :=
        List.mem_flatMap.2 ⟨_, hstage, List.mem_map_of_mem hmade⟩
      have hbatch : attempt.seen c.policy.fetchKeys ∈ batches m.backing.store.seen := by
        rw [h.called]
        exact List.mem_append_right _ hcall
      exact ⟨_, (List.mem_filter.1 hbatch).1⟩
  | number | queue | force | execute | clear | adjust => cases hmade

theorem seen_submitStatement_now
    {statement : Statement} {c : Coordinator} {b : Backing (Watched σ)} {reply : Reply}
    (h : (perform ctx (.submit (.statement statement) false) c b).1 = .ok reply) :
    ∃ fetch refusal,
      (perform ctx (.submit (.statement statement) false) c b).2.2.store.seen.getLast? =
        some ⟨.single statement fetch, refusal⟩ := by
  rcases hflush : c.flush ctx b with ⟨e | totals, settled, after⟩
  · simp only [perform, submit, submitStatement, flushIf, hflush, Step.andThen] at h
    cases h
  · have hlast : ∀ fetch, ∃ refusal,
        (after.executeNow ctx.registry fetch (.statement statement)).2.store.seen.getLast? =
          some ⟨.single statement (fetch && statement.isInsert), refusal⟩ := by
      intro fetch
      rcases hcall : Store.execute statement (fetch && statement.isInsert) after.store.behind with
        ⟨e | answer, last⟩
      all_goals
        simp [Backing.executeNow, Request.execute, Request.bind, Store.execute, hcall,
          Seen.ofAnswer, Backing.note, Backing.count]
    obtain ⟨refusal, hseen⟩ := hlast settled.policy.fetchKeys
    refine ⟨_, refusal, Eq.trans ?_ hseen⟩
    rcases hnow : after.executeNow ctx.registry settled.policy.fetchKeys (.statement statement) with
      ⟨e | outcome, last⟩
    all_goals
      simp [perform, submit, submitStatement, flushIf, hflush, Step.andThen, executeNow, hnow]

/-- A statement reaches the store as it is when it is executed at once.  When it was buffered and
is sent, the text that the store sees has the same literals exactly if every blank in a literal of
the statement is a single space, and it differs outside of them in blanks only under the same
condition.  Another statement in the same call has the same literals if this holds for both, and
only then if it holds for one of them. -/
theorem literals_sent_iff
    {c : Coordinator} {b : Backing (Watched σ)} (h : Run ctx history c b) {id : RequestId}
    {statement : Statement} (hmem : (id, .statement statement) ∈ accepted history) :
    (∀ (d : Coordinator) (begun : Backing (Watched σ)) (reply : Reply),
        (perform ctx (.submit (.statement statement) false) d begun).1 = .ok reply →
      ∃ fetch refusal,
        (perform ctx (.submit (.statement statement) false) d begun).2.2.store.seen.getLast? =
          some ⟨.single statement fetch, refusal⟩) ∧
      ∀ attempt ∈ attempts ctx.registry history, attempt.Carries id →
        (∃ fetch, attempt.seen fetch ∈ b.store.seen) ∧
        (unspaced attempt.group.text = unspaced statement.text ↔ Tight statement.text) ∧
        (literals attempt.group.text = literals statement.text ↔ Tight statement.text) ∧
        ∀ other another, (other, .statement another) ∈ accepted history →
          attempt.Carries other → Tight statement.text →
            (literals another.text = literals statement.text ↔ Tight another.text) := by
  obtain ⟨given, htally⟩ := h.tally
  refine ⟨fun d begun reply hok => seen_submitStatement_now hok, ?_⟩
  intro attempt hattempt hcarries
  have htext := htally.text_of_carries hmem hattempt hcarries
  rw [htext]
  refine ⟨htally.seen_of_attempt hattempt, unspaced_normalText_iff _, literals_normalText_iff _, ?_⟩
  intro other another hother hmerged htight
  have hsame := htally.text_of_carries hother hattempt hmerged
  exact literals_eq_iff_of_normalText_eq (htext.symm.trans hsame) htight

def insertLiteral (literal : String) : Statement :=
  ⟨"insert into t (x) values ('" ++ literal ++ "')", []⟩

def flushing (literal : String) : List Operation :=
  [.submit (.statement (insertLiteral literal)) true, .flush false]

def insertFlushed (literal : String) :
    List (Stage (Watched Memory)) × Coordinator × Backing (Watched Memory) :=
  performAll ⟨.empty, "t", false⟩ (flushing literal) (.new {}) untouched

theorem run_insertFlushed (literal : String) :
    Run ⟨.empty, "t", false⟩ (insertFlushed literal).1 (insertFlushed literal).2.1
      (insertFlushed literal).2.2 :=
  (Run.new {} untouched rfl).performAll (flushing literal)

/-- A literal with a single space is the same in the call of the flush. -/
theorem literals_sent_of_single_space :
    Tight (insertLiteral "a b").text ∧
      ∃ attempt ∈ attempts .empty (insertFlushed "a b").1,
        (∃ fetch, attempt.seen fetch ∈ (insertFlushed "a b").2.2.store.seen) ∧
          literals attempt.group.text = literals (insertLiteral "a b").text := by
  have haccepted : (⟨1⟩, .statement (insertLiteral "a b")) ∈ accepted (insertFlushed "a b").1 := by
    decide
  have hlength : 0 < (attempts .empty (insertFlushed "a b").1).length := by
    decide
  have hcarries : ∀ attempt ∈ attempts .empty (insertFlushed "a b").1, attempt.Carries ⟨1⟩ := by
    unfold Attempt.Carries
    decide
  have htight : Tight (insertLiteral "a b").text := by
    decide
  obtain ⟨attempt, hattempt⟩ := List.exists_mem_of_length_pos hlength
  obtain ⟨-, hsent⟩ := literals_sent_iff (run_insertFlushed "a b") haccepted
  obtain ⟨hseen, -, hliterals, -⟩ := hsent attempt hattempt (hcarries attempt hattempt)
  exact ⟨htight, attempt, hattempt, hseen, hliterals.2 htight⟩

/-- A literal with two spaces is executed as it is at once.  Buffered, it loses a space and shares
a call with the literal that has one. -/
theorem literals_merged_by_batching :
    literals (insertLiteral "a  b").text = "'a  b'" ∧
      literals (insertLiteral "a b").text = "'a b'" ∧
      (performAll ⟨.empty, "t", false⟩
          [.submit (.statement (insertLiteral "a  b")) false,
            .submit (.statement (insertLiteral "a  b")) true,
            .submit (.statement (insertLiteral "a b")) true, .flush false]
          (.new {}) untouched).2.2.store.behind.executed =
        [⟨(insertLiteral "a  b").text, [], none⟩, ⟨(insertLiteral "a b").text, [], some 0⟩,
          ⟨(insertLiteral "a b").text, [], some 0⟩] := by
  decide

end Coordinator

end Cascade
