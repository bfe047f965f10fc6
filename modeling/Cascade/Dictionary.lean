/-!
# Ordered dictionaries

A dictionary lists its keys in strictly ascending order, so two dictionaries
that answer every lookup alike are the same list.  The order is part of the
type: `Dictionary.insert` keeps it, and a repeated key keeps the last value.

The operations on bare association lists come first, because a tree of values
holds such lists before anything is known about their order.
-/

namespace Cascade

/-- Keys that can be compared: a decidable, transitive and trichotomous order. -/
class KeyOrder (κ : Type) extends LT κ where
  decidableLT : DecidableLT κ
  trans {a b c : κ} : a < b → b < c → a < c
  irrefl (a : κ) : ¬a < a
  eq_of_not_lt {a b : κ} : ¬a < b → ¬b < a → a = b

namespace KeyOrder

instance {κ : Type} [KeyOrder κ] : DecidableLT κ :=
  KeyOrder.decidableLT

/-- Texts are compared character by character, which is also the order of their UTF-8 bytes. -/
instance : KeyOrder String where
  decidableLT := inferInstance
  trans := String.lt_trans
  irrefl := String.lt_irrefl
  eq_of_not_lt hab hba := String.le_antisymm hba hab

instance : KeyOrder Nat where
  decidableLT := inferInstance
  trans := Nat.lt_trans
  irrefl := Nat.lt_irrefl
  eq_of_not_lt hab hba := Nat.le_antisymm (Nat.le_of_not_lt hba) (Nat.le_of_not_lt hab)

/-- A type whose values are told apart by a key is ordered by that key. -/
abbrev byKey {α κ : Type} [KeyOrder κ] (key : α → κ)
    (injective : ∀ a b, key a = key b → a = b) : KeyOrder α where
  lt a b := key a < key b
  decidableLT a b := inferInstanceAs (Decidable (key a < key b))
  trans := KeyOrder.trans
  irrefl a := KeyOrder.irrefl (key a)
  eq_of_not_lt hab hba := injective _ _ (KeyOrder.eq_of_not_lt hab hba)

end KeyOrder

namespace Assoc

variable {κ β : Type} [KeyOrder κ]

/-- Put a value under a key, in the place that the order of keys gives it. -/
def insert (key : κ) (value : β) : List (κ × β) → List (κ × β)
  | [] => [(key, value)]
  | (other, held) :: rest =>
      if key < other then (key, value) :: (other, held) :: rest
      else if other < key then (other, held) :: insert key value rest
      else (key, value) :: rest

/-- Collect pairs into ascending order; of two pairs with one key the later is kept. -/
def collect (pairs : List (κ × β)) : List (κ × β) :=
  pairs.foldl (fun held pair => insert pair.1 pair.2 held) []

def Ascending (entries : List (κ × β)) : Prop :=
  entries.Pairwise (fun a b => a.1 < b.1)

instance (entries : List (κ × β)) : Decidable (Ascending entries) :=
  inferInstanceAs (Decidable (entries.Pairwise _))

/-- The entries after an insertion are old ones, or the new one. -/
theorem mem_insert
    {key : κ} {value : β} {entries : List (κ × β)} {entry : κ × β}
    (h : entry ∈ insert key value entries) :
    entry = (key, value) ∨ entry ∈ entries := by
  induction entries with
  | nil => simpa [insert] using h
  | cons head rest ih =>
    simp only [insert] at h
    split at h
    · simpa using h
    · split at h
      · rcases List.mem_cons.1 h with rfl | h
        · simp
        · rcases ih h with rfl | h
          · simp
          · simp [h]
      · rcases List.mem_cons.1 h with rfl | h
        · simp
        · simp [h]

theorem ascending_insert
    (key : κ) (value : β) {entries : List (κ × β)} (h : Ascending entries) :
    Ascending (insert key value entries) := by
  induction entries with
  | nil => simp [insert, Ascending]
  | cons head rest ih =>
    have hrest : Ascending rest := (List.pairwise_cons.1 h).2
    have hhead : ∀ entry ∈ rest, head.1 < entry.1 := (List.pairwise_cons.1 h).1
    simp only [insert]
    split
    · next hlt =>
      refine List.pairwise_cons.2 ⟨fun entry hmem => ?_, h⟩
      rcases List.mem_cons.1 hmem with rfl | hmem
      · exact hlt
      · exact KeyOrder.trans hlt (hhead entry hmem)
    · next hnot =>
      split
      · next hgt =>
        refine List.pairwise_cons.2 ⟨fun entry hmem => ?_, ih hrest⟩
        rcases mem_insert hmem with rfl | hmem
        · exact hgt
        · exact hhead entry hmem
      · next hnot' =>
        have heq : key = head.1 := KeyOrder.eq_of_not_lt hnot hnot'
        exact List.pairwise_cons.2 ⟨fun entry hmem => heq ▸ hhead entry hmem, hrest⟩

theorem ascending_foldl_insert
    (pairs : List (κ × β)) {entries : List (κ × β)} (h : Ascending entries) :
    Ascending (pairs.foldl (fun held pair => insert pair.1 pair.2 held) entries) := by
  induction pairs generalizing entries with
  | nil => exact h
  | cons pair rest ih => exact ih (ascending_insert pair.1 pair.2 h)

theorem ascending_collect (pairs : List (κ × β)) : Ascending (collect pairs) :=
  ascending_foldl_insert pairs List.Pairwise.nil

/-- The first value that the entries hold under a key. -/
def get? [DecidableEq κ] (sought : κ) : List (κ × β) → Option β
  | [] => none
  | (key, value) :: rest => if key = sought then some value else get? sought rest

/-- After an insertion the key leads to the new value, and every other key to what it led to. -/
theorem get?_insert [DecidableEq κ]
    (key sought : κ) (value : β) (entries : List (κ × β)) :
    get? sought (insert key value entries) =
      if key = sought then some value else get? sought entries := by
  induction entries with
  | nil => rfl
  | cons head rest ih =>
    obtain ⟨other, held⟩ := head
    simp only [insert]
    split
    · rfl
    · next hnot =>
      split
      · next hgt =>
        by_cases h : other = sought
        · have hne : key ≠ sought := fun heq => KeyOrder.irrefl key (by rwa [h, ← heq] at hgt)
          simp [get?, h, hne]
        · simp [get?, h, ih]
      · next hnot' =>
        have heq : key = other := KeyOrder.eq_of_not_lt hnot hnot'
        subst heq
        by_cases h : key = sought <;> simp [get?, h]

end Assoc

/-- A finite map, listed by ascending key. -/
structure Dictionary (κ β : Type) [KeyOrder κ] where
  entries : List (κ × β)
  ascending : Assoc.Ascending entries

namespace Dictionary

variable {κ β γ : Type} [KeyOrder κ]

@[ext] theorem ext {a b : Dictionary κ β} (h : a.entries = b.entries) : a = b := by
  cases a
  cases b
  cases h
  rfl

instance [DecidableEq κ] [DecidableEq β] : DecidableEq (Dictionary κ β) := fun a b =>
  if h : a.entries = b.entries then isTrue (Dictionary.ext h)
  else isFalse (fun heq => h (heq ▸ rfl))

def empty : Dictionary κ β := ⟨[], List.Pairwise.nil⟩

instance : EmptyCollection (Dictionary κ β) := ⟨empty⟩

instance : Inhabited (Dictionary κ β) := ⟨empty⟩

/-- Put a value under a key, replacing what the key held. -/
def insert (key : κ) (value : β) (d : Dictionary κ β) : Dictionary κ β :=
  ⟨Assoc.insert key value d.entries, Assoc.ascending_insert key value d.ascending⟩

/-- Put several values in turn; the last value of a key stays. -/
def insertAll (pairs : List (κ × β)) (d : Dictionary κ β) : Dictionary κ β :=
  pairs.foldl (fun held pair => held.insert pair.1 pair.2) d

/-- The dictionary of a list of pairs; the last value of a key stays. -/
def ofList (pairs : List (κ × β)) : Dictionary κ β :=
  (empty : Dictionary κ β).insertAll pairs

/-- The value under a key, if it has one. -/
def get? [DecidableEq κ] (d : Dictionary κ β) (key : κ) : Option β :=
  Assoc.get? key d.entries

def contains [DecidableEq κ] (d : Dictionary κ β) (key : κ) : Bool :=
  (d.get? key).isSome

def keys (d : Dictionary κ β) : List κ :=
  d.entries.map Prod.fst

def size (d : Dictionary κ β) : Nat :=
  d.entries.length

def isEmpty (d : Dictionary κ β) : Bool :=
  d.entries.isEmpty

/-- The dictionary with a function applied to every value. -/
def mapValues (f : β → γ) (d : Dictionary κ β) : Dictionary κ γ where
  entries := d.entries.map (fun entry => (entry.1, f entry.2))
  ascending := by
    unfold Assoc.Ascending
    rw [List.pairwise_map]
    exact d.ascending

def values (d : Dictionary κ β) : List β :=
  d.entries.map Prod.snd

@[simp] theorem get?_empty [DecidableEq κ] (key : κ) :
    (empty : Dictionary κ β).get? key = none :=
  rfl

theorem get?_insert [DecidableEq κ]
    (key sought : κ) (value : β) (d : Dictionary κ β) :
    (d.insert key value).get? sought = if key = sought then some value else d.get? sought :=
  Assoc.get?_insert key sought value d.entries

end Dictionary

end Cascade
