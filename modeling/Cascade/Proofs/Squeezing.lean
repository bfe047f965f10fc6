import Cascade.Statement

/-!
# Squeezing character by character

To squeeze a text cuts it into words and joins them.  Seen from the characters
it is one scan that drops the blanks in front and writes a space before every
word but the first.  A text and its normal form begin with the same word, so
both are inserts or neither is.
-/

namespace Cascade

namespace Text

/-- What squeezing writes of the rest of a text after a word was begun; a blank may have ended the
word already. -/
def resumed : Bool → List Char → List Char
  | _, [] => []
  | gap, c :: rest =>
      if isBlank c then resumed true rest
      else if gap then ' ' :: c :: resumed false rest
      else c :: resumed false rest

/-- What squeezing writes of a text. -/
def begun : List Char → List Char
  | [] => []
  | c :: rest => if isBlank c then begun rest else c :: resumed false rest

@[simp] theorem isBlank_space : isBlank ' ' = true := by
  decide

theorem unwords_cons (word : List Char) {others : List (List Char)} (h : others ≠ []) :
    unwords (word :: others) = word ++ ' ' :: unwords others := by
  cases others with
  | nil => exact absurd rfl h
  | cons next rest => rfl

/-- Behind a gap the rest is what squeezing writes of it, if it has a word, with a space in
front. -/
theorem resumed_gap (chars : List Char) :
    resumed true chars = if begun chars = [] then [] else ' ' :: begun chars := by
  induction chars with
  | nil => rfl
  | cons c rest ih =>
      by_cases h : isBlank c
      · simpa [resumed, begun, h] using ih
      · simp [resumed, begun, h]

theorem unwords_wordsAfter (chars : List Char) :
    (∀ held, held ≠ [] → wordsAfter held chars ≠ [] ∧
        unwords (wordsAfter held chars) = held.reverse ++ resumed false chars) ∧
      (wordsAfter [] chars = [] ↔ begun chars = []) ∧
      unwords (wordsAfter [] chars) = begun chars := by
  induction chars with
  | nil =>
      refine ⟨?_, by simp [wordsAfter, finishedWord, begun], rfl⟩
      intro held hheld
      obtain ⟨c, rest, rfl⟩ := List.exists_cons_of_ne_nil hheld
      simp [wordsAfter, finishedWord, unwords, resumed]
  | cons c rest ih =>
      obtain ⟨hopen, hnone, hfresh⟩ := ih
      by_cases h : isBlank c
      · refine ⟨?_, by simpa [wordsAfter, finishedWord, begun, h] using hnone,
          by simpa [wordsAfter, finishedWord, begun, h] using hfresh⟩
        intro held hheld
        have hfinished : finishedWord held = [held.reverse] := by
          obtain ⟨d, others, rfl⟩ := List.exists_cons_of_ne_nil hheld
          rfl
        have hwords : wordsAfter held (c :: rest) = held.reverse :: wordsAfter [] rest := by
          simp [wordsAfter, h, hfinished]
        have hresumed : resumed false (c :: rest) = resumed true rest := by
          simp [resumed, h]
        rw [hwords, hresumed, resumed_gap]
        refine ⟨by simp, ?_⟩
        by_cases hrest : begun rest = []
        · simp [hnone.2 hrest, unwords, hrest]
        · rw [unwords_cons _ (fun hwords => hrest (hnone.1 hwords)), hfresh, if_neg hrest]
      · obtain ⟨hword, htext⟩ := hopen [c] (by simp)
        refine ⟨?_, by simp [wordsAfter, begun, h, hword],
          by simpa [wordsAfter, begun, h] using htext⟩
        intro held hheld
        obtain ⟨hheldword, hheldtext⟩ := hopen (c :: held) (by simp)
        simpa [wordsAfter, resumed, h] using And.intro hheldword hheldtext

theorem toList_squeeze (text : String) : (squeeze text).toList = begun text.toList := by
  simp [squeeze, words, (unwords_wordsAfter text.toList).2.2]

theorem resumed_resumed (gap : Bool) (chars : List Char) :
    resumed false (resumed gap chars) = resumed gap chars := by
  induction chars generalizing gap with
  | nil => rfl
  | cons c rest ih =>
      by_cases h : isBlank c
      · simpa [resumed, h] using ih true
      · cases gap <;> simp [resumed, h, ih]

theorem begun_begun (chars : List Char) : begun (begun chars) = begun chars := by
  induction chars with
  | nil => rfl
  | cons c rest ih =>
      by_cases h : isBlank c
      · simpa [begun, h] using ih
      · simp [begun, h, resumed_resumed]

end Text

open Text

@[simp] theorem normalText_normalText (text : String) :
    normalText (normalText text) = normalText text := by
  rw [← String.toList_inj]
  simp only [normalText, toList_squeeze, begun_begun]

/-- No character of the word is a blank, in any case. -/
theorem toLower_notMem_insertWord {c : Char} (h : isBlank c = true) : c.toLower ∉ insertWord := by
  have hblank : insertWord.any isBlank = false := by
    decide
  have hsame : c.toLower = c := by
    unfold Char.toLower
    split
    · next hupper =>
      exfalso
      simp only [isBlank, blankRanges, List.any_cons, List.any_nil, Bool.or_false, Bool.or_eq_true,
        Bool.and_eq_true, decide_eq_true_eq] at h
      have hle : 65 ≤ c.toNat ∧ c.toNat ≤ 90 := hupper
      omega
    · rfl
  intro hmem
  rw [hsame] at hmem
  exact List.any_eq_false.1 hblank c hmem h

/-- A word without blanks begins what squeezing writes of a text exactly if it begins the text. -/
theorem take_resumed_iff
    {f : Char → Char} {word : List Char} (hword : ∀ c, isBlank c = true → f c ∉ word)
    (chars : List Char) :
    ((resumed false chars).take word.length).map f = word ↔
      (chars.take word.length).map f = word := by
  induction word generalizing chars with
  | nil => simp
  | cons x rest ih =>
      cases chars with
      | nil => rfl
      | cons c others =>
          by_cases hblank : isBlank c
          · have hnot : ∀ d, isBlank d = true → f d ≠ x := by
              intro d hd hsame
              exact hword d hd (by simp [hsame])
            have hgap : resumed false (c :: others) = resumed true others := by
              simp [resumed, hblank]
            rw [hgap, resumed_gap]
            split
            · simp [hnot c hblank]
            · simp [hnot c hblank, hnot ' ' isBlank_space]
          · have hrest := ih (fun d hd hmem => hword d hd (List.mem_cons_of_mem _ hmem)) others
            rw [List.map_take, List.map_take] at hrest
            simp [resumed, hblank, hrest]

theorem isInsertText_normalText (text : String) :
    isInsertText (normalText text) = isInsertText text := by
  have hdrop : ∀ chars, dropBlanks (begun chars) = begun chars ∧
      begun chars = resumed false (dropBlanks chars) := by
    intro chars
    induction chars with
    | nil => exact ⟨rfl, rfl⟩
    | cons c rest ih =>
        by_cases h : isBlank c
        · simpa [begun, dropBlanks, h] using ih
        · simp [begun, dropBlanks, resumed, h]
  obtain ⟨hnormal, htext⟩ := hdrop text.toList
  have hword := take_resumed_iff (fun c => toLower_notMem_insertWord) (dropBlanks text.toList)
  rw [Bool.eq_iff_iff, isInsertText, isInsertText, normalText, toList_squeeze, hnormal, htext,
    beq_iff_eq, beq_iff_eq]
  exact hword

end Cascade
