import Cascade.Dictionary
import Cascade.Json.Number

/-!
# JSON values

A value is canonical when the members of every object in it are listed by
strictly ascending key.  Values that are carried through a store are canonical
by type: two data that agree on every lookup are equal.
-/

namespace Cascade.Json

/-- A JSON value. -/
inductive Value where
  | null
  | bool (value : Bool)
  | number (value : Number)
  | string (value : String)
  | array (items : List Value)
  | object (members : List (String × Value))
  deriving Repr, Inhabited

namespace Value

def ofInt (n : Int) : Value := .number (.integer n)

def ofNat (n : Nat) : Value := .number (.integer n)

/-- An object with the given members, listed by key. -/
def ofMembers (members : List (String × Value)) : Value :=
  .object (Assoc.collect members)

mutual

def same : Value → Value → Bool
  | .null, .null => true
  | .bool a, .bool b => a == b
  | .number a, .number b => a == b
  | .string a, .string b => a == b
  | .array a, .array b => sameItems a b
  | .object a, .object b => sameMembers a b
  | _, _ => false

def sameItems : List Value → List Value → Bool
  | [], [] => true
  | a :: as, b :: bs => same a b && sameItems as bs
  | _, _ => false

def sameMembers : List (String × Value) → List (String × Value) → Bool
  | [], [] => true
  | (k, a) :: as, (l, b) :: bs => k == l && same a b && sameMembers as bs
  | _, _ => false

end

mutual

theorem same_iff : ∀ a b : Value, same a b = true ↔ a = b
  | .null, b => by cases b <;> simp [same]
  | .bool a, b => by cases b <;> simp [same]
  | .number a, b => by cases b <;> simp [same]
  | .string a, b => by cases b <;> simp [same]
  | .array a, b => by cases b <;> simp [same, sameItems_iff a]
  | .object a, b => by cases b <;> simp [same, sameMembers_iff a]

theorem sameItems_iff : ∀ as bs : List Value, sameItems as bs = true ↔ as = bs
  | [], bs => by cases bs <;> simp [sameItems]
  | a :: as, bs => by cases bs <;> simp [sameItems, same_iff a, sameItems_iff as]

theorem sameMembers_iff : ∀ as bs : List (String × Value), sameMembers as bs = true ↔ as = bs
  | [], bs => by cases bs <;> simp [sameMembers]
  | (k, a) :: as, bs => by
    rcases bs with _ | ⟨⟨l, b⟩, bs⟩
    · simp [sameMembers]
    · simp [sameMembers, same_iff a, sameMembers_iff as]

end

instance : DecidableEq Value := fun a b =>
  decidable_of_iff (same a b = true) (same_iff a b)

mutual

/-- Whether every object in a value lists its members by strictly ascending key. -/
def Canonical : Value → Prop
  | .array items => CanonicalItems items
  | .object members => Assoc.Ascending members ∧ CanonicalMembers members
  | _ => True

def CanonicalItems : List Value → Prop
  | [] => True
  | value :: rest => Canonical value ∧ CanonicalItems rest

def CanonicalMembers : List (String × Value) → Prop
  | [] => True
  | member :: rest => Canonical member.2 ∧ CanonicalMembers rest

end

end Value

/-- A canonical value: what columns and parameters hold, and stores hand back. -/
structure Datum where
  value : Value
  /-- The members of its objects are listed by key. -/
  canonical : value.Canonical

namespace Datum

@[ext] theorem ext {a b : Datum} (h : a.value = b.value) : a = b := by
  cases a
  cases b
  cases h
  rfl

instance : DecidableEq Datum := fun a b =>
  if h : a.value = b.value then isTrue (Datum.ext h)
  else isFalse (fun heq => h (heq ▸ rfl))

def null : Datum := ⟨.null, by simp [Value.Canonical]⟩

def ofNat (n : Nat) : Datum := ⟨.ofNat n, by simp [Value.ofNat, Value.Canonical]⟩

def ofString (text : String) : Datum := ⟨.string text, by simp [Value.Canonical]⟩

instance : Inhabited Datum := ⟨null⟩

instance : Repr Datum := ⟨fun d n => reprPrec d.value n⟩

end Datum

/-- The columns of a record with their values, by ascending name. -/
abbrev Row := Dictionary String Datum

end Cascade.Json
