/-!
# Lines

A sequence of bytes or of characters falls into lines: an ending closes a line
and is no part of it, and a line at the end of the sequence needs no ending.
By `lines_append_ending` a line that holds no ending is read back from in front
of whatever follows its ending.
-/

namespace Cascade.Text

def lineFeed : UInt8 := 10

variable {α : Type} [DecidableEq α]

/-- The lines of a sequence whose first line has begun with the reverse of `held`. -/
def linesAfter (ending : α) (held : List α) : List α → List (List α)
  | [] => if held.isEmpty then [] else [held.reverse]
  | a :: rest =>
      if a = ending then held.reverse :: linesAfter ending [] rest
      else linesAfter ending (a :: held) rest

/-- The lines of a sequence, without what ends them; nothing follows the last ending. -/
def lines (ending : α) (sequence : List α) : List (List α) :=
  linesAfter ending [] sequence

/-- What precedes the first ending belongs to the line that has begun. -/
theorem linesAfter_append_ending {ending : α} {line : List α} (h : ending ∉ line)
    (held rest : List α) :
    linesAfter ending held (line ++ ending :: rest) =
      (held.reverse ++ line) :: lines ending rest := by
  induction line generalizing held with
  | nil => simp [linesAfter, lines]
  | cons a line ih =>
      have ha : a ≠ ending := fun e => h (e ▸ List.mem_cons_self)
      have hline : ending ∉ line := fun e => h (List.mem_cons_of_mem a e)
      simp [linesAfter, ha, ih hline]

/-- An ending closes the first line, and the lines of what follows come behind it. -/
theorem lines_append_ending {ending : α} {line : List α} (h : ending ∉ line) (rest : List α) :
    lines ending (line ++ ending :: rest) = line :: lines ending rest :=
  linesAfter_append_ending h [] rest

/-- What precedes the first ending, and what follows it, is determined by the sequence. -/
theorem append_ending_inj {ending : α} {line line' : List α} (h : ending ∉ line)
    (h' : ending ∉ line') {rest rest' : List α} :
    line ++ ending :: rest = line' ++ ending :: rest' ↔ line = line' ∧ rest = rest' := by
  constructor
  · intro heq
    have hlines := congrArg (lines ending) heq
    rw [lines_append_ending h, lines_append_ending h'] at hlines
    obtain ⟨rfl, -⟩ := List.cons.inj hlines
    exact ⟨rfl, (List.cons.inj (List.append_cancel_left heq)).2⟩
  · rintro ⟨rfl, rfl⟩
    rfl

/-- A line of text without the carriage return right before its ending. -/
def withoutReturn (line : List Char) : List Char :=
  if line.getLast? = some '\r' then line.dropLast else line

/-- The lines of a text in which a line feed closes each line, alone or behind a carriage return. -/
def textLines (text : List Char) : List (List Char) :=
  (lines '\n' text).map withoutReturn

end Cascade.Text
