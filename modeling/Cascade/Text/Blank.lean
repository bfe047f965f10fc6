/-!
# Blanks and words

A blank is a character with the Unicode property White_Space.  This module
trims texts, cuts them into words (the longest stretches without a blank) and
squeezes them: words separated by single spaces, with no blank at either end.
-/

namespace Cascade.Text

/-- The ranges of the characters that are blank, first and last included. -/
def blankRanges : List (Nat × Nat) :=
  [(0x09, 0x0D), (0x20, 0x20), (0x85, 0x85), (0xA0, 0xA0), (0x1680, 0x1680),
   (0x2000, 0x200A), (0x2028, 0x2029), (0x202F, 0x202F), (0x205F, 0x205F),
   (0x3000, 0x3000)]

def isBlank (c : Char) : Bool :=
  blankRanges.any (fun range => range.1 ≤ c.toNat && c.toNat ≤ range.2)

def dropBlanks (chars : List Char) : List Char :=
  chars.dropWhile isBlank

def trimBlanks (chars : List Char) : List Char :=
  (dropBlanks (dropBlanks chars).reverse).reverse

/-- The word gathered so far, in reverse, if it has a character. -/
def finishedWord : List Char → List (List Char)
  | [] => []
  | c :: held => [(c :: held).reverse]

/-- The words of a text whose first word has begun with the reverse of `held`. -/
def wordsAfter (held : List Char) : List Char → List (List Char)
  | [] => finishedWord held
  | c :: rest =>
      if isBlank c then finishedWord held ++ wordsAfter [] rest
      else wordsAfter (c :: held) rest

/-- The words of a text: its longest stretches without a blank, in order. -/
def words (chars : List Char) : List (List Char) :=
  wordsAfter [] chars

/-- Words written one after the other, with one space between neighbours. -/
def unwords : List (List Char) → List Char
  | [] => []
  | [word] => word
  | word :: next :: rest => word ++ ' ' :: unwords (next :: rest)

/-- The text with its words separated by single spaces and no blank at the ends. -/
def squeeze (text : String) : String :=
  String.ofList (unwords (words text.toList))

end Cascade.Text
