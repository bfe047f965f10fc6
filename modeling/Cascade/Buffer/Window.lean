import Cascade.Buffer.Records
import Cascade.Sorting

/-!
# The window of groups

The window holds the groups opened since the last reset, those whose writes
have been flushed included.  A root type that enters it is given a depth for
as long as the window lasts:

* off the top level of a cascade, or in an empty window: its cascade depth,
  counted from `baseDepth`;
* a type that imports nothing: one below the deepest group so far;
* a type that imports one that has a group: one below that group;
* any other type: its place is unknown.
-/

namespace Cascade

/-- The depth of the top level of a cascade. -/
def baseDepth : Int := 100

/-- The groups opened since the last reset, by root type. -/
abbrev Window := Dictionary RootType RecordGroup

namespace Window

def buffered (window : Window) : Nat :=
  sumOf (window.values.map RecordGroup.size)

def isDrained (window : Window) : Bool :=
  window.values.all RecordGroup.isEmpty

/-- The groups in the order in which they are executed. -/
def ordered (window : Window) : List RecordGroup :=
  sortBy RecordGroup.precedes window.values

def drained (window : Window) : Window :=
  window.mapValues RecordGroup.drained

end Window

/-- Where the group of a root type that enters the window belongs. -/
inductive Placement where
  /-- At a depth. -/
  | depth (depth : Int)
  /-- Nowhere: its order relative to the groups of the window is unknown. -/
  | unknown
  deriving DecidableEq, Repr

/-- Where the group of a root type that enters the window belongs, given the cascade depth of its
first write, the root types it imports and the depth of the deepest group so far. -/
def placement (relative : Int) (imported : List RootType) (window : Window) (deepest : Int) :
    Placement :=
  if relative ≠ 0 ∨ window.isEmpty then .depth (baseDepth + relative)
  else if imported.isEmpty then .depth (deepest + 1)
  else
    match imported.findSome? (fun target => window.get? target) with
    | some parent => .depth (parent.depth + 1)
    | none => .unknown

end Cascade
