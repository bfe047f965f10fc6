import Cascade.Proofs.Parcels
import Cascade.Proofs.Squeezing

/-!
# Words

The words of a text are its longest stretches without a blank.  The normal form of
a text keeps its words and nothing else: one space stands between neighbours, and
there is no other blank.  So two texts have one normal form exactly if they have the
same words, and a text may be put into normal form any number of times before it is
used as a key.
-/

namespace Cascade

namespace Text

/-- How a text falls into words: blanks may stand in front of a word, and behind it comes a blank or
the end of the text. -/
inductive Worded : List Char → List (List Char) → Prop
  | blank {gap : List Char} : (∀ c ∈ gap, isBlank c = true) → Worded gap []
  | word {gap word rest : List Char} {others : List (List Char)} :
      (∀ c ∈ gap, isBlank c = true) → word ≠ [] → (∀ c ∈ word, isBlank c = false) →
      (∀ c ∈ rest.head?, isBlank c = true) → Worded rest others →
      Worded (gap ++ word ++ rest) (word :: others)

/-- Every blank of a text is a space between two characters that are not blank. -/
def SingleSpaced (chars : List Char) : Prop :=
  ∀ front c back, chars = front ++ c :: back → isBlank c = true →
    c = ' ' ∧ (∃ before ∈ front.getLast?, isBlank before = false) ∧
      ∃ behind ∈ back.head?, isBlank behind = false

/-! ## Every text falls into words in one way -/

theorem Worded.cons_blank
    {c : Char} {chars : List Char} {listed : List (List Char)} (hc : isBlank c = true)
    (h : Worded chars listed) : Worded (c :: chars) listed := by
  cases h with
  | blank hgap => exact .blank (List.forall_mem_cons.2 ⟨hc, hgap⟩)
  | word hgap hword hchars hrest hothers =>
      exact .word (List.forall_mem_cons.2 ⟨hc, hgap⟩) hword hchars hrest hothers

/-- A word in front of a text that begins with a blank or is at its end. -/
theorem Worded.cons_word
    {word rest : List Char} {others : List (List Char)} (hword : word ≠ [])
    (hchars : ∀ c ∈ word, isBlank c = false) (hrest : ∀ c ∈ rest.head?, isBlank c = true)
    (h : Worded rest others) : Worded (word ++ rest) (word :: others) := by
  have hnone : Worded ([] ++ word ++ rest) (word :: others) :=
    .word (List.forall_mem_nil _) hword hchars hrest h
  exact hnone

theorem Worded.cons_char
    {c : Char} {chars : List Char} {listed : List (List Char)} (hc : isBlank c = false)
    (h : Worded chars listed) : ∃ listed', Worded (c :: chars) listed' := by
  have hsingle : ∀ d ∈ [c], isBlank d = false := List.forall_mem_singleton.2 hc
  cases h with
  | blank hgap =>
      refine ⟨[[c]], .cons_word (List.cons_ne_nil c []) hsingle ?_ (.blank hgap)⟩
      exact fun d hd => hgap d (List.mem_of_mem_head? hd)
  | @word gap word rest others hgap hword hchars hrest hothers =>
      cases gap with
      | nil =>
          exact ⟨(c :: word) :: others, .cons_word (List.cons_ne_nil c word)
            (List.forall_mem_cons.2 ⟨hc, hchars⟩) hrest hothers⟩
      | cons b gap =>
          have hbehind : Worded ((b :: gap) ++ word ++ rest) (word :: others) :=
            .word hgap hword hchars hrest hothers
          refine ⟨[c] :: word :: others,
            .cons_word (List.cons_ne_nil c []) hsingle ?_ hbehind⟩
          intro d hd
          obtain rfl : b = d := by simpa using hd
          exact hgap b List.mem_cons_self

theorem exists_worded (chars : List Char) : ∃ listed, Worded chars listed := by
  induction chars with
  | nil => exact ⟨[], .blank (List.forall_mem_nil _)⟩
  | cons c rest ih =>
      obtain ⟨listed, hlisted⟩ := ih
      rcases hc : isBlank c with _ | _
      · exact hlisted.cons_char hc
      · exact ⟨listed, hlisted.cons_blank hc⟩

theorem wordsAfter_nil_append
    {gap : List Char} (hgap : ∀ c ∈ gap, isBlank c = true) (rest : List Char) :
    wordsAfter [] (gap ++ rest) = wordsAfter [] rest := by
  induction gap with
  | nil => rfl
  | cons c gap ih =>
      rw [List.forall_mem_cons] at hgap
      simpa [wordsAfter, finishedWord, hgap.1] using ih hgap.2

theorem wordsAfter_append
    {word : List Char} (hword : ∀ c ∈ word, isBlank c = false) (held rest : List Char) :
    wordsAfter held (word ++ rest) = wordsAfter (word.reverse ++ held) rest := by
  induction word generalizing held with
  | nil => rfl
  | cons c word ih =>
      rw [List.forall_mem_cons] at hword
      simp [wordsAfter, hword.1, ih hword.2]

/-- A blank or the end of the text completes the word that was begun. -/
theorem wordsAfter_of_head?
    {rest : List Char} (hrest : ∀ c ∈ rest.head?, isBlank c = true) {held : List Char}
    (hheld : held ≠ []) : wordsAfter held rest = held.reverse :: wordsAfter [] rest := by
  obtain ⟨d, others, rfl⟩ := List.exists_cons_of_ne_nil hheld
  cases rest with
  | nil => rfl
  | cons c rest => simp [wordsAfter, finishedWord, hrest c rfl]

/-- A text falls into some words exactly if these are its words. -/
theorem worded_iff {chars : List Char} {listed : List (List Char)} :
    Worded chars listed ↔ words chars = listed := by
  have hwords : ∀ {chars listed}, Worded chars listed → words chars = listed := by
    intro chars listed h
    induction h with
    | @blank gap hgap =>
        rw [words, ← List.append_nil gap, wordsAfter_nil_append hgap]
        rfl
    | @word gap word rest others hgap hword hchars hrest _ ih =>
        rw [words, List.append_assoc, wordsAfter_nil_append hgap, wordsAfter_append hchars,
          List.append_nil, wordsAfter_of_head? hrest (by simpa using hword), List.reverse_reverse]
        exact congrArg (List.cons word) ih
  constructor
  · exact hwords
  · rintro rfl
    obtain ⟨listed, h⟩ := exists_worded chars
    rw [hwords h]
    exact h

/-! ## Words with single spaces between them -/

/-- Whether a list of characters is a word. -/
def IsWord (word : List Char) : Prop :=
  word ≠ [] ∧ ∀ c ∈ word, isBlank c = false

theorem Worded.isWord
    {chars : List Char} {listed : List (List Char)} (h : Worded chars listed) :
    ∀ word ∈ listed, IsWord word := by
  induction h with
  | blank => exact List.forall_mem_nil _
  | word _ hword hchars _ _ ih => exact List.forall_mem_cons.2 ⟨⟨hword, hchars⟩, ih⟩

theorem isWord_of_mem_words {chars word : List Char} (h : word ∈ words chars) : IsWord word :=
  (worded_iff.2 rfl : Worded chars (words chars)).isWord word h

theorem worded_unwords {listed : List (List Char)} (h : ∀ word ∈ listed, IsWord word) :
    Worded (unwords listed) listed := by
  induction listed with
  | nil => exact .blank (List.forall_mem_nil _)
  | cons word rest ih =>
      obtain ⟨⟨hword, hchars⟩, hothers⟩ := List.forall_mem_cons.1 h
      cases rest with
      | nil =>
          have hend : Worded (word ++ []) [word] :=
            .cons_word hword hchars nofun (.blank (List.forall_mem_nil _))
          simpa [unwords] using hend
      | cons next others =>
          have hbehind := (ih hothers).cons_blank isBlank_space
          refine .cons_word hword hchars ?_ hbehind
          intro c hc
          cases Option.some.inj hc
          exact isBlank_space

theorem words_unwords {listed : List (List Char)} (h : ∀ word ∈ listed, IsWord word) :
    words (unwords listed) = listed :=
  worded_iff.1 (worded_unwords h)

theorem head?_unwords
    {word : List Char} (hword : IsWord word) (others : List (List Char)) :
    ∃ c ∈ (unwords (word :: others)).head?, isBlank c = false := by
  obtain ⟨hne, hchars⟩ := hword
  obtain ⟨c, rest, rfl⟩ := List.exists_cons_of_ne_nil hne
  refine ⟨c, ?_, hchars c List.mem_cons_self⟩
  cases others <;> rfl

/-- A word in front of a single-spaced text, with a space between them. -/
theorem SingleSpaced.cons_word
    {word chars : List Char} (hword : IsWord word) (h : SingleSpaced chars)
    (hfirst : ∃ c ∈ chars.head?, isBlank c = false) : SingleSpaced (word ++ ' ' :: chars) := by
  intro front c back hchars hblank
  -- The blank is the space behind the word, or it stands further behind.
  have hplace : (front = word ∧ c = ' ' ∧ back = chars) ∨
      ∃ more, front = word ++ ' ' :: more ∧ chars = more ++ c :: back := by
    rcases List.append_eq_append_iff.1 hchars with ⟨more, hfront, hback⟩ | ⟨more, hend, hback⟩
    · cases more with
      | nil =>
          obtain ⟨rfl, rfl⟩ := List.cons.inj hback
          exact Or.inl ⟨hfront.trans (List.append_nil _), rfl, rfl⟩
      | cons d more =>
          obtain ⟨rfl, hmore⟩ := List.cons.inj hback
          exact Or.inr ⟨more, hfront, hmore⟩
    · cases more with
      | nil =>
          obtain ⟨rfl, rfl⟩ := List.cons.inj hback
          exact Or.inl ⟨(hend.trans (List.append_nil _)).symm, rfl, rfl⟩
      | cons d more =>
          obtain ⟨rfl, -⟩ := List.cons.inj hback
          have hnot := hword.2 c (by simp [hend])
          rw [hblank] at hnot
          cases hnot
  rcases hplace with ⟨rfl, rfl, rfl⟩ | ⟨more, rfl, hmore⟩
  · exact ⟨rfl, ⟨front.getLast hword.1, List.getLast?_eq_some_getLast hword.1,
      hword.2 _ (List.getLast_mem hword.1)⟩, hfirst⟩
  · obtain ⟨hspace, ⟨before, hbefore, hnot⟩, hbehind⟩ := h more c back hmore hblank
    refine ⟨hspace, ⟨before, ?_, hnot⟩, hbehind⟩
    have hne : more ≠ [] := by
      rintro rfl
      cases hbefore
    rw [List.getLast?_append, List.getLast?_cons_of_ne_nil hne]
    simpa using Or.inl hbefore

theorem singleSpaced_unwords {listed : List (List Char)} (h : ∀ word ∈ listed, IsWord word) :
    SingleSpaced (unwords listed) := by
  induction listed with
  | nil =>
      intro front c back hchars
      simp [unwords] at hchars
  | cons word rest ih =>
      obtain ⟨hword, hothers⟩ := List.forall_mem_cons.1 h
      cases rest with
      | nil =>
          intro front c back hchars hblank
          rw [unwords] at hchars
          have hnot := hword.2 c (by simp [hchars])
          rw [hblank] at hnot
          cases hnot
      | cons next others =>
          have hfirst := head?_unwords (hothers next List.mem_cons_self) others
          exact (ih hothers).cons_word hword hfirst

@[simp] theorem words_squeeze (text : String) :
    words (squeeze text).toList = words text.toList := by
  rw [squeeze, String.toList_ofList]
  exact words_unwords (fun _ => isWord_of_mem_words)

theorem singleSpaced_squeeze (text : String) : SingleSpaced (squeeze text).toList := by
  rw [squeeze, String.toList_ofList]
  exact singleSpaced_unwords (fun _ => isWord_of_mem_words)

/-- Texts are squeezed into one exactly if they have the same words. -/
theorem squeeze_eq_iff {a b : String} :
    squeeze a = squeeze b ↔ words a.toList = words b.toList := by
  constructor
  · intro h
    rw [← words_squeeze a, h, words_squeeze]
  · intro h
    rw [squeeze, squeeze, h]

end Text

/-! ## Keys of statements -/

open Text

namespace StatementBatch

/-- A text that is known gets no second group, and a text that is new gets one behind the others. -/
theorem texts_append (batch : StatementBatch) (statement : Statement) (origin : Option RequestId) :
    (batch.append statement origin).2.groups.map StatementGroup.text =
      if normalText statement.text ∈ batch.groups.map StatementGroup.text then
        batch.groups.map StatementGroup.text
      else batch.groups.map StatementGroup.text ++ [normalText statement.text] := by
  simp only [append]
  generalize batch.groups = groups
  induction groups with
  | nil => rfl
  | cons head rest ih =>
      by_cases htext : head.text = normalText statement.text
      · simp [place, htext, StatementGroup.add]
      · have hmem : normalText statement.text ∈ (head :: rest).map StatementGroup.text ↔
            normalText statement.text ∈ rest.map StatementGroup.text := by
          rw [List.map_cons, List.mem_cons, or_iff_right (Ne.symm htext)]
        rw [place, if_neg htext, List.map_cons, ih]
        simp only [hmem]
        split <;> rfl

/-- A statement is appended as the same statement with its text in normal form is. -/
theorem append_normal (batch : StatementBatch) (statement : Statement) (origin : Option RequestId) :
    batch.append statement.normal origin = batch.append statement origin := by
  simp only [append, Statement.normal, Statement.isInsert, normalText_normalText,
    isInsertText_normalText]

/-- A second statement joins the group of the first exactly if their normal texts are the same. -/
theorem texts_append_append_iff
    (first second : Statement) (origin other : Option RequestId) :
    ((empty.append first origin).2.append second other).2.groups.map StatementGroup.text =
        [normalText first.text] ↔
      normalText first.text = normalText second.text := by
  have hfirst : (empty.append first origin).2.groups.map StatementGroup.text =
      [normalText first.text] :=
    rfl
  rw [texts_append, hfirst]
  by_cases hsame : normalText first.text = normalText second.text
  · simp [hsame]
  · simp [hsame, Ne.symm hsame]

end StatementBatch

/-- The normal form of a text is canonical.  It is its own normal form; its only blanks are single
spaces between words; and two texts have it in common exactly if they fall into the same words.  So
a batch files a statement alike under its text and under the normal form of it, and a statement
continues the run of another exactly if a batch that has gathered the other files it in the same
group. -/
theorem normal_form_canonical (a b : String) :
    normalText (normalText a) = normalText a ∧
      SingleSpaced (normalText a).toList ∧
      (normalText a = normalText b ↔
        ∃ listed, Worded a.toList listed ∧ Worded b.toList listed) ∧
      ∀ (batch : StatementBatch) (before params : List Json.Datum)
          (earlier origin : Option RequestId),
        batch.append ⟨normalText a, params⟩ origin = batch.append ⟨a, params⟩ origin ∧
        ((some (normalText b)).any (· != normalText a) = false ↔
          ((StatementBatch.empty.append ⟨b, before⟩ earlier).2.append ⟨a, params⟩
            origin).2.groups.map StatementGroup.text = [normalText b]) := by
  refine ⟨normalText_normalText a, singleSpaced_squeeze a, ?_, ?_⟩
  · rw [normalText, normalText, squeeze_eq_iff]
    constructor
    · intro hsame
      exact ⟨words a.toList, worded_iff.2 rfl, worded_iff.2 hsame.symm⟩
    · rintro ⟨listed, ha, hb⟩
      rw [worded_iff.1 ha, worded_iff.1 hb]
  · intro batch before params earlier origin
    refine ⟨batch.append_normal ⟨a, params⟩ origin, ?_⟩
    rw [StatementBatch.texts_append_append_iff ⟨b, before⟩ ⟨a, params⟩ earlier origin]
    simp

end Cascade
