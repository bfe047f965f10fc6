/-!
# Stable sorting

`sortBy precedes` lists a finite sequence in ascending order of a strict
comparison and leaves entries that neither precede each other in the order in
which they stood.  The sort recurses on the list alone, so it evaluates inside
the logic.
-/

namespace Cascade

variable {α : Type}

/-- Put an entry in front of the first entry that does not precede it. -/
def insertBy (precedes : α → α → Bool) (entry : α) : List α → List α
  | [] => [entry]
  | head :: rest =>
      if precedes head entry then head :: insertBy precedes entry rest
      else entry :: head :: rest

/-- Sort by a strict comparison, keeping the order of entries that compare alike. -/
def sortBy (precedes : α → α → Bool) : List α → List α
  | [] => []
  | head :: rest => insertBy precedes head (sortBy precedes rest)

theorem insertBy_perm
    (precedes : α → α → Bool) (entry : α) (entries : List α) :
    (insertBy precedes entry entries).Perm (entry :: entries) := by
  induction entries with
  | nil => exact List.Perm.refl _
  | cons head rest ih =>
    simp only [insertBy]
    split
    · exact (ih.cons head).trans (List.Perm.swap entry head rest)
    · exact List.Perm.refl _

theorem sortBy_perm
    (precedes : α → α → Bool) (entries : List α) :
    (sortBy precedes entries).Perm entries := by
  induction entries with
  | nil => exact List.Perm.refl _
  | cons head rest ih => exact (insertBy_perm precedes head _).trans (ih.cons head)

end Cascade
