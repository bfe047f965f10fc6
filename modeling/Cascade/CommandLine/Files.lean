/-!
# Files

What a path leads to.  `FileTree` holds the files and directories of a system
at their positions below its root.  A path is walked one name at a time, and
every name, an empty one included, has to be looked for in a directory; so a
file with a slash behind its name is not found.
-/

namespace Cascade.CommandLine

/-- What a path leads to. -/
inductive Place where
  /-- Nothing that could be opened. -/
  | nothing
  /-- A directory: it can be opened, but nothing can be read from it. -/
  | directory
  /-- A file with its content. -/
  | file (content : List UInt8)
  deriving DecidableEq, Repr

def Place.content? : Place → Option (List UInt8)
  | .file content => some content
  | _ => none

/-- The names on the way from the root to a file or directory. -/
abbrev Position := List String

/-- The files and directories of a system. -/
structure FileTree where
  /-- The files with their contents. -/
  files : List (Position × List UInt8)
  /-- Directories; those on the way to them and to files need not be listed. -/
  directories : List Position
  /-- The directory in which paths begin that do not begin at the root. -/
  working : Position
  deriving DecidableEq, Repr

namespace FileTree

def longestPath : Nat := 4095

/-- The names in a path: what stands between its slashes. -/
def names : List Char → List (List Char)
  | [] => [[]]
  | c :: rest =>
      match names rest with
      | first :: others => if c = '/' then [] :: first :: others else (c :: first) :: others
      | [] => []

def isDirectory (tree : FileTree) (position : Position) : Bool :=
  (tree.working :: tree.directories).any (fun other => position.isPrefixOf other) ||
    tree.files.any (fun file => position.isPrefixOf file.1 && position != file.1)

def placeAt (tree : FileTree) (position : Position) : Place :=
  match tree.files.lookup position with
  | some content => .file content
  | none => if tree.isDirectory position then .directory else .nothing

/-- The position that a name leads to, looked for in a directory. -/
def enter (tree : FileTree) (position : Position) (name : String) : Option Position :=
  if tree.isDirectory position then
    if name = "" ∨ name = "." then some position
    else if name = ".." then some position.dropLast
    else some (position ++ [name])
  else none

def walk (tree : FileTree) : Position → List String → Option Position
  | position, [] => some position
  | position, name :: rest =>
      match tree.enter position name with
      | some next => walk tree next rest
      | none => none

def origin (tree : FileTree) (path : String) : Position :=
  if path.toList.head? = some '/' then [] else tree.working

/-- What a path leads to; an empty path and one that is too long lead to nothing. -/
def find (tree : FileTree) (path : String) : Place :=
  if path = "" ∨ longestPath < path.utf8ByteSize then .nothing
  else
    match tree.walk (tree.origin path) ((names path.toList).map String.ofList) with
    | some position => tree.placeAt position
    | none => .nothing

end FileTree

end Cascade.CommandLine
