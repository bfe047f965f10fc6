import Cascade.Json.Value
import Cascade.Text.Blank

/-!
# Statements

A statement is a text with the parameters bound to its placeholders.  Texts
that differ only in blanks share a normal form, under which statements are
batched.  Only an insert can make the store hand back a generated key.
-/

namespace Cascade

/-- A text with its parameters, ready to be executed. -/
structure Statement where
  text : String
  params : List Json.Datum
  deriving DecidableEq, Repr

/-- The normal form of a statement text: words separated by single spaces. -/
def normalText (text : String) : String :=
  Text.squeeze text

def insertWord : List Char := ['i', 'n', 's', 'e', 'r', 't']

/-- Whether a statement text is an insert: its first six characters, blanks apart, in any case. -/
def isInsertText (text : String) : Bool :=
  ((Text.dropBlanks text.toList).take 6).map Char.toLower == insertWord

def Statement.isInsert (statement : Statement) : Bool :=
  isInsertText statement.text

end Cascade
