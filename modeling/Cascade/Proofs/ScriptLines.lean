import Cascade.CommandLine.Reply
import Cascade.Proofs.Utf8
import Mathlib.Data.List.Forall2
import Mathlib.Data.List.ReduceOption

/-!
# The lines of a script

A script is read exactly if each of its lines says something: nothing at all,
being blank or a comment, or an operation.  The operations are then those of the
lines, in their order.  Otherwise the number of the first line that says nothing
is reported, and nothing is executed.
-/

namespace Cascade

namespace Text

/-! ## How bytes fall into lines -/

def carriageReturn : UInt8 := 13

/-- What stands in front of a line feed is a line, without a carriage return at its end. -/
inductive Ended : List UInt8 → List UInt8 → Prop
  | bare {line : List UInt8} (h : ∀ front, line ≠ front ++ [carriageReturn]) : Ended line line
  | returned (line : List UInt8) : Ended (line ++ [carriageReturn]) line

/-- How bytes fall into lines: a line feed ends a line, alone or behind a carriage return, and
what follows the last line feed is a line of its own unless it is empty. -/
inductive FallsInto : List UInt8 → List (List UInt8) → Prop
  | nothing : FallsInto [] []
  | unended {line : List UInt8} (hfeed : lineFeed ∉ line) (hsome : line ≠ []) :
      FallsInto line [line]
  | ended {written line rest : List UInt8} {lines : List (List UInt8)}
      (hfeed : lineFeed ∉ written) (hended : Ended written line) (hrest : FallsInto rest lines) :
      FallsInto (written ++ lineFeed :: rest) (line :: lines)

theorem exists_ended (written : List UInt8) : ∃ line, Ended written line := by
  by_cases h : ∃ front, written = front ++ [carriageReturn]
  · obtain ⟨front, rfl⟩ := h
    exact ⟨front, .returned front⟩
  · exact ⟨written, .bare (not_exists.1 h)⟩

theorem Ended.unique {written line other : List UInt8} (h : Ended written line)
    (hother : Ended written other) : line = other := by
  cases h with
  | bare hbare =>
      cases hother with
      | bare => rfl
      | returned => exact absurd rfl (hbare _)
  | returned =>
      generalize hwritten : line ++ [carriageReturn] = written at hother
      cases hother with
      | bare hbare => exact absurd hwritten.symm (hbare _)
      | returned => exact List.append_cancel_right hwritten

theorem exists_fallsInto (content : List UInt8) : ∃ lines, FallsInto content lines := by
  induction hlength : content.length using Nat.strongRecOn generalizing content with
  | _ length ih =>
  by_cases hmem : lineFeed ∈ content
  · obtain ⟨written, rest, rfl, hfeed⟩ := List.eq_append_cons_of_mem hmem
    obtain ⟨line, hended⟩ := exists_ended written
    obtain ⟨lines, hlines⟩ := ih rest.length (by simp at hlength; omega) rest rfl
    exact ⟨line :: lines, .ended hfeed hended hlines⟩
  · by_cases hsome : content = []
    · exact ⟨[], hsome ▸ .nothing⟩
    · exact ⟨[content], .unended hmem hsome⟩

theorem linesAfter_of_notMem {line held : List UInt8} (h : lineFeed ∉ line) :
    linesAfter lineFeed held line =
      if held = [] ∧ line = [] then [] else [held.reverse ++ line] := by
  induction line generalizing held with
  | nil => simp [linesAfter]
  | cons byte rest ih =>
      rw [List.mem_cons, not_or] at h
      simp [linesAfter, Ne.symm h.1, ih h.2]

theorem lines_of_notMem {line : List UInt8} (h : lineFeed ∉ line) (hsome : line ≠ []) :
    lines lineFeed line = [line] := by
  rw [lines, linesAfter_of_notMem h, if_neg (fun hnone => hsome hnone.2)]
  rfl

/-- Lines that are cut at line feeds alone keep the carriage returns in front of these. -/
theorem FallsInto.forall₂_lines {content : List UInt8} {lines : List (List UInt8)}
    (h : FallsInto content lines) :
    List.Forall₂ (fun written line => written = line ∨ written = line ++ [carriageReturn])
      (Text.lines lineFeed content) lines := by
  induction h with
  | nothing => exact .nil
  | unended hfeed hsome =>
      rw [lines_of_notMem hfeed hsome]
      exact .cons (.inl rfl) .nil
  | ended hfeed hended _ ih =>
      rw [lines_append_ending hfeed]
      refine .cons ?_ ih
      cases hended with
      | bare => exact .inl rfl
      | returned => exact .inr rfl

theorem FallsInto.unique {content : List UInt8} {lines others : List (List UInt8)}
    (h : FallsInto content lines) (hothers : FallsInto content others) : lines = others := by
  induction h generalizing others with
  | nothing =>
      generalize hcontent : [] = content at hothers
      cases hothers with
      | nothing => rfl
      | unended _ hsome => exact absurd hcontent.symm hsome
      | ended => simp at hcontent
  | @unended line hfeed hsome =>
      cases hothers with
      | nothing => exact absurd rfl hsome
      | unended => rfl
      | ended => simp at hfeed
  | @ended written line rest lines hfeed hended _ ih =>
      generalize hcontent : written ++ lineFeed :: rest = content at hothers
      cases hothers with
      | nothing => simp at hcontent
      | unended hfeed' => simp [← hcontent] at hfeed'
      | @ended written' line' rest' lines' hfeed' hended' hrest' =>
          obtain ⟨rfl, rfl⟩ := (append_ending_inj hfeed hfeed').1 hcontent
          rw [hended.unique hended', ih hrest']

/-! ## Texts without the blanks at their ends -/

/-- What is left of a text without the blanks at its ends. -/
structure Trims (text core : List Char) : Prop where
  parts : ∃ front back, text = front ++ core ++ back ∧ ∀ c ∈ front ++ back, isBlank c = true
  first : ∀ c ∈ core.head?, isBlank c = false
  last : ∀ c ∈ core.getLast?, isBlank c = false

theorem dropBlanks_append {front : List Char} (h : ∀ c ∈ front, isBlank c = true)
    (rest : List Char) : dropBlanks (front ++ rest) = dropBlanks rest :=
  List.dropWhile_append_of_pos h

theorem dropBlanks_of_head? {text : List Char} (h : ∀ c ∈ text.head?, isBlank c = false) :
    dropBlanks text = text := by
  cases text with
  | nil => rfl
  | cons c rest =>
      rw [dropBlanks, List.dropWhile_cons_of_neg]
      simpa using h c rfl

theorem exists_append_dropBlanks (text : List Char) :
    ∃ front, text = front ++ dropBlanks text ∧ ∀ c ∈ front, isBlank c = true :=
  ⟨text.takeWhile isBlank, List.takeWhile_append_dropWhile.symm,
    List.all_eq_true.1 List.all_takeWhile⟩

theorem head?_dropBlanks (text : List Char) :
    ∀ c ∈ (dropBlanks text).head?, isBlank c = false := by
  intro c hc
  have hnot := List.head?_dropWhile_not isBlank text
  rw [← dropBlanks, Option.mem_def.1 hc] at hnot
  exact hnot

theorem trims_trimBlanks (text : List Char) : Trims text (trimBlanks text) := by
  obtain ⟨front, hfront, hblank⟩ := exists_append_dropBlanks text
  obtain ⟨back, hback, hblank'⟩ := exists_append_dropBlanks (dropBlanks text).reverse
  have hrest : dropBlanks text = trimBlanks text ++ back.reverse := by
    rw [trimBlanks, ← List.reverse_append, ← hback, List.reverse_reverse]
  refine ⟨⟨front, back.reverse, ?_, ?_⟩, ?_, ?_⟩
  · rw [List.append_assoc, ← hrest, ← hfront]
  · simpa [or_imp, forall_and] using ⟨hblank, hblank'⟩
  · intro c hc
    refine head?_dropBlanks text c ?_
    rw [hrest, List.head?_append, Option.mem_def.1 hc]
    rfl
  · intro c hc
    rw [trimBlanks, List.getLast?_reverse] at hc
    exact head?_dropBlanks _ c hc

theorem Trims.eq_trimBlanks {text core : List Char} (h : Trims text core) :
    core = trimBlanks text := by
  obtain ⟨⟨front, back, rfl, hblank⟩, hfirst, hlast⟩ := h
  have hfront : ∀ c ∈ front, isBlank c = true := fun c hc => hblank c (List.mem_append_left _ hc)
  have hback : ∀ c ∈ back, isBlank c = true := fun c hc => hblank c (List.mem_append_right _ hc)
  rw [trimBlanks, List.append_assoc, dropBlanks_append hfront]
  cases core with
  | nil =>
      have hnone := dropBlanks_append hback []
      rw [List.append_nil] at hnone
      rw [List.nil_append, hnone]
      rfl
  | cons c rest =>
      have hrest : dropBlanks (c :: rest ++ back) = c :: rest ++ back :=
        dropBlanks_of_head? hfirst
      have hback' : ∀ c ∈ back.reverse, isBlank c = true := by simpa using hback
      rw [hrest, List.reverse_append, dropBlanks_append hback',
        dropBlanks_of_head? (by rwa [List.head?_reverse]), List.reverse_reverse]

theorem trims_iff {text core : List Char} : Trims text core ↔ trimBlanks text = core :=
  ⟨fun h => h.eq_trimBlanks.symm, fun h => h ▸ trims_trimBlanks text⟩

theorem trimBlanks_append_blank (text : List Char) {c : Char} (hc : isBlank c = true) :
    trimBlanks (text ++ [c]) = trimBlanks text := by
  obtain ⟨⟨front, back, htext, hblank⟩, hfirst, hlast⟩ := trims_trimBlanks text
  refine trims_iff.1 ⟨⟨front, back ++ [c], ?_, ?_⟩, hfirst, hlast⟩
  · rw [← List.append_assoc, ← htext]
  · intro d hd
    rw [← List.append_assoc] at hd
    rcases List.mem_append.1 hd with hd | hd
    · exact hblank d hd
    · rwa [List.mem_singleton.1 hd]

end Text

namespace Replay

open Text (FallsInto Trims)

/-! ## What lines say -/

/-- What a line of a script says: nothing, if it is blank or a comment, or an operation. -/
inductive Says (line : List UInt8) : Option Operation → Prop
  | nothing {text core : List Char} (htext : line = text.flatMap String.utf8EncodeChar)
      (hcore : Trims text core) (hskipped : core = [] ∨ core.head? = some '#') : Says line none
  | operation {text core : List Char} {operation : Operation}
      (htext : line = text.flatMap String.utf8EncodeChar) (hcore : Trims text core)
      (hkept : ¬(core = [] ∨ core.head? = some '#'))
      (hread : Operation.ofText? core = some operation) : Says line (some operation)

theorem isSkipped_iff {core : List Char} :
    isSkipped core = true ↔ core = [] ∨ core.head? = some '#' := by
  cases core <;> simp [isSkipped]

/-- What is read from a line is what the line says. -/
theorem says_iff {line : List UInt8} {held : Option Operation} :
    Says line held ↔ readLine Operation.ofText? line = some held := by
  constructor
  · intro h
    cases h with
    | nothing htext hcore hskipped =>
        rw [readLine, Text.decodeUtf8_eq_some_iff.2 htext]
        simp only [Text.trims_iff.1 hcore, isSkipped_iff.2 hskipped, if_true]
    | operation htext hcore hkept hread =>
        rw [readLine, Text.decodeUtf8_eq_some_iff.2 htext]
        simp only [Text.trims_iff.1 hcore, isSkipped_iff, hkept, if_false, hread, Option.map_some]
  · intro h
    unfold readLine at h
    split at h
    · cases h
    · next text hdecode =>
      have htext := Text.decodeUtf8_eq_some_iff.1 hdecode
      have hcore := Text.trims_trimBlanks text
      dsimp only at h
      split at h
      · next hskipped =>
        cases h
        exact .nothing htext hcore (isSkipped_iff.1 hskipped)
      · next hkept =>
        obtain ⟨operation, hread, rfl⟩ := Option.map_eq_some_iff.1 h
        exact .operation htext hcore (fun hskipped => hkept (isSkipped_iff.2 hskipped)) hread

theorem not_says_iff {line : List UInt8} :
    (∀ held, ¬Says line held) ↔ readLine Operation.ofText? line = none := by
  simp only [says_iff, Option.eq_none_iff_forall_ne_some, ne_eq]

theorem readLine_append_return {α : Type} (read : List Char → Option α) (line : List UInt8) :
    readLine read (line ++ [Text.carriageReturn]) = readLine read line := by
  have hblank : Text.isBlank (Char.ofNat Text.carriageReturn.toNat) = true := by
    decide
  rw [readLine, readLine, Text.decodeUtf8_append_ascii line (by decide)]
  cases Text.decodeUtf8 line with
  | none => rfl
  | some text => simp only [Option.map_some, Text.trimBlanks_append_blank text hblank]

/-- It makes no difference for what is read whether carriage returns are kept. -/
theorem readLines_congr {α : Type} (read : List Char → Option α) {written lines : List (List UInt8)}
    (h : List.Forall₂ (fun written line => written = line ∨ written = line ++ [Text.carriageReturn])
      written lines) (number : Nat) :
    readLines read number written = readLines read number lines := by
  induction h generalizing number with
  | nil => rfl
  | @cons written line _ _ hline _ ih =>
      have hsame : readLine read written = readLine read line := by
        rcases hline with rfl | rfl
        · rfl
        · exact readLine_append_return read line
      simp only [readLines, hsame, ih]

theorem exists_forall₂_iff {α β : Type} {R : α → β → Prop} {front : List α} :
    (∃ held, List.Forall₂ R front held) ↔ ∀ a ∈ front, ∃ b, R a b := by
  induction front with
  | nil => simp
  | cons a rest ih =>
      rw [List.forall_mem_cons, ← ih]
      simp only [List.forall₂_cons_left_iff]
      constructor
      · rintro ⟨-, b, held, hb, hheld, rfl⟩
        exact ⟨⟨b, hb⟩, held, hheld⟩
      · rintro ⟨⟨b, hb⟩, held, hheld⟩
        exact ⟨_, b, held, hb, hheld, rfl⟩

theorem reduceOption_cons {α : Type} (held : Option α) (rest : List (Option α)) :
    (held :: rest).reduceOption = held.toList ++ rest.reduceOption := by
  cases held <;> rfl

/-- Lines are read exactly if each of them can be, and then yield what they hold, in order. -/
theorem readLines_eq_ok_iff {α : Type} {read : List Char → Option α} {number : Nat}
    {lines : List (List UInt8)} {values : List α} :
    readLines read number lines = .ok values ↔
      ∃ held, List.Forall₂ (fun line held => readLine read line = some held) lines held ∧
        values = held.reduceOption := by
  induction lines generalizing number values with
  | nil => simp [readLines, eq_comm]
  | cons line rest ih =>
      simp only [List.forall₂_cons_left_iff]
      rw [readLines]
      constructor
      · intro h
        split at h
        · cases h
        · next first hfirst =>
          split at h
          · cases h
          · next others hothers =>
            cases h
            obtain ⟨held, hheld, rfl⟩ := ih.1 hothers
            exact ⟨first :: held, ⟨first, held, hfirst, hheld, rfl⟩,
              (reduceOption_cons first held).symm⟩
      · rintro ⟨-, ⟨first, held, hfirst, hheld, rfl⟩, rfl⟩
        simp only [hfirst, ih.2 ⟨held, hheld, rfl⟩, reduceOption_cons]

/-- The first line that cannot be read is reported, by its number. -/
theorem readLines_eq_error_iff {α : Type} {read : List Char → Option α} {number bad : Nat}
    {lines : List (List UInt8)} :
    readLines read number lines = .error bad ↔
      ∃ front line rest, lines = front ++ line :: rest ∧
        (∀ line ∈ front, ∃ held, readLine read line = some held) ∧ readLine read line = none ∧
        bad = number + front.length := by
  induction lines generalizing number with
  | nil => simp [readLines]
  | cons line rest ih =>
      constructor
      · intro h
        rw [readLines] at h
        split at h
        · next hnone =>
          cases h
          exact ⟨[], line, rest, rfl, by simp, hnone, rfl⟩
        · next first hfirst =>
          split at h
          · next hbad =>
            cases h
            obtain ⟨front, other, rest', rfl, hfront, hnone, rfl⟩ := ih.1 hbad
            refine ⟨line :: front, other, rest', rfl, ?_, hnone, ?_⟩
            · exact List.forall_mem_cons.2 ⟨⟨first, hfirst⟩, hfront⟩
            · rw [List.length_cons]
              omega
          · cases h
      · rintro ⟨front, other, rest', hlines, hfront, hnone, hbad⟩
        cases front with
        | nil =>
            obtain ⟨rfl, rfl⟩ := List.cons.inj hlines
            rw [readLines, hnone, hbad]
            rfl
        | cons first front =>
            rw [List.cons_append] at hlines
            obtain ⟨rfl, rfl⟩ := List.cons.inj hlines
            obtain ⟨⟨held, hheld⟩, hfront⟩ := List.forall_mem_cons.1 hfront
            have hnumber : bad = number + 1 + front.length := by
              rw [hbad, List.length_cons]
              omega
            have hrest : readLines read (number + 1) (front ++ other :: rest') = .error bad :=
              ih.2 ⟨front, other, rest', rfl, hfront, hnone, hnumber⟩
            simp only [readLines, hheld, hrest]

end Replay

namespace CommandLine

open Replay (Operation Says)
open Text (FallsInto)

variable {path : String} {content : List UInt8}

theorem readOperations_eq_ok_iff {operations : List Operation} :
    readOperations path (.file content) = .ok operations ↔
      Replay.readScript Operation.ofText? content = .ok operations := by
  simp only [readOperations, readValues]
  cases Replay.readScript Operation.ofText? content <;> simp

theorem readOperations_eq_error_iff {failure : Failure} :
    readOperations path (.file content) = .error failure ↔
      ∃ number, Replay.readScript Operation.ofText? content = .error number ∧
        failure = .script number .malformed := by
  simp only [readOperations, readValues]
  cases Replay.readScript Operation.ofText? content <;> simp [eq_comm]

/-- Nothing is executed of a script that cannot be read: the command fails at the script, if not
already at its setup, and tells this failure alone. -/
theorem replay_of_readOperations_eq_error {failure : Failure}
    (h : readOperations path (.file content) = .error failure) (config : Place)
    (transaction : String) :
    ∃ cause, replay config path (.file content) transaction = .error cause ∧
      (cause = failure ∨ ∃ unusable, Replay.Setup.ofFile config.content? = .error unusable ∧
        cause = .setup unusable) ∧
      ∀ verbose, replayReply config path (.file content) verbose transaction =
        ⟨1, [(failureValue cause).render], [cause.text]⟩ := by
  have hreply : ∀ cause, replay config path (.file content) transaction = .error cause →
      ∀ verbose, replayReply config path (.file content) verbose transaction =
        ⟨1, [(failureValue cause).render], [cause.text]⟩ := by
    intro cause hcause verbose
    rw [replayReply, hcause]
  cases hsetup : Replay.Setup.ofFile config.content? with
  | error unusable =>
      have hcause : replay config path (.file content) transaction = .error (.setup unusable) := by
        rw [replay, hsetup]
      exact ⟨_, hcause, .inr ⟨unusable, rfl, rfl⟩, hreply _ hcause⟩
  | ok setup =>
      have hcause : replay config path (.file content) transaction = .error failure := by
        simp only [replay, hsetup, h]
      exact ⟨_, hcause, .inl rfl, hreply _ hcause⟩

/-- A script is read as a whole or not at all, and one that is not read is not executed. -/
theorem readOperations_all_or_nothing (path : String) (content : List UInt8) :
    ∃ lines, (∀ other, FallsInto content other ↔ other = lines) ∧
      ((∃ operations, readOperations path (.file content) = .ok operations) ↔
        ∀ line ∈ lines, ∃ held, Says line held) ∧
      (∀ operations, readOperations path (.file content) = .ok operations ↔
        ∃ held, List.Forall₂ Says lines held ∧ operations = held.reduceOption) ∧
      (∀ failure, readOperations path (.file content) = .error failure ↔
        ∃ front bad rest, lines = front ++ bad :: rest ∧
          (∀ line ∈ front, ∃ held, Says line held) ∧ (∀ held, ¬Says bad held) ∧
          failure = .script (front.length + 1) .malformed) ∧
      ∀ failure, readOperations path (.file content) = .error failure →
        ∀ config transaction, ∃ cause,
          replay config path (.file content) transaction = .error cause ∧
          (cause = failure ∨ ∃ unusable, Replay.Setup.ofFile config.content? = .error unusable ∧
            cause = .setup unusable) ∧
          ∀ verbose, replayReply config path (.file content) verbose transaction =
            ⟨1, [(failureValue cause).render], [cause.text]⟩ := by
  obtain ⟨lines, hlines⟩ := Text.exists_fallsInto content
  have hscript : Replay.readScript Operation.ofText? content =
      Replay.readLines Operation.ofText? 1 lines :=
    Replay.readLines_congr Operation.ofText? hlines.forall₂_lines 1
  have hsays : (fun line held => Replay.readLine Operation.ofText? line = some held) = Says := by
    funext line held
    exact propext Replay.says_iff.symm
  have hread : ∀ operations, readOperations path (.file content) = .ok operations ↔
      ∃ held, List.Forall₂ Says lines held ∧ operations = held.reduceOption := by
    intro operations
    rw [readOperations_eq_ok_iff, hscript, Replay.readLines_eq_ok_iff, hsays]
  refine ⟨lines, fun other => ⟨fun h => h.unique hlines, fun h => h ▸ hlines⟩, ?_, hread, ?_,
    fun failure hfailure => replay_of_readOperations_eq_error hfailure⟩
  · rw [← Replay.exists_forall₂_iff]
    constructor
    · rintro ⟨operations, hoperations⟩
      obtain ⟨held, hheld, -⟩ := (hread operations).1 hoperations
      exact ⟨held, hheld⟩
    · rintro ⟨held, hheld⟩
      exact ⟨_, (hread _).2 ⟨held, hheld, rfl⟩⟩
  · intro failure
    rw [readOperations_eq_error_iff, hscript]
    simp only [Replay.readLines_eq_error_iff, ← Replay.says_iff, ← Replay.not_says_iff]
    constructor
    · rintro ⟨number, ⟨front, bad, rest, hlines, hfront, hbad, rfl⟩, rfl⟩
      exact ⟨front, bad, rest, hlines, hfront, hbad, by rw [Nat.add_comm]⟩
    · rintro ⟨front, bad, rest, hlines, hfront, hbad, rfl⟩
      exact ⟨_, ⟨front, bad, rest, hlines, hfront, hbad, Nat.add_comm _ _⟩, rfl⟩

-- A comment and a line of blanks are skipped, and the last line needs no ending.
example :
    readOperations "script" (.file ("# writes\n".toUTF8.toList ++ [0xC2, 0xA0, 13, 10] ++
      "\x7b\"op\":\"sql\",\"sql\":\"x\"\x7d\r\n".toUTF8.toList ++
      "  \x7b\"op\":\"commit\"\x7d".toUTF8.toList)) =
        .ok [.run ⟨"x", []⟩ false, .commit] := by
  decide +kernel

-- The second operation is unknown, and the first is not executed either.
example :
    readOperations "script" (.file ("\x7b\"op\":\"flush\"\x7d\n# \n".toUTF8.toList ++
      "\x7b\"op\":\"halt\"\x7d\n".toUTF8.toList)) = .error (.script 3 .malformed) := by
  decide +kernel

end CommandLine

end Cascade
