import Cascade.Json.Value

/-!
# Documents

A document is a JSON text as it is written: members in their order, repeated
keys included.  Parts that are well formed but denote no value (a number that
is not finite, a string with half of a surrogate pair, a container nested too
deep) are marked as unreadable: a reader may skip them but not keep them.

`Document.datum?` keeps a whole document; a repeated key keeps its last value.
`Document.ofValue` is the document that spells a value.
-/

namespace Cascade.Json

/-- A JSON text as it is written. -/
inductive Document where
  | null
  | bool (value : Bool)
  | number (value : Number)
  | string (value : String)
  | array (items : List Document)
  | object (members : List (Option String × Document))
  | unreadable
  deriving Inhabited

namespace Document

/-- How many containers may enclose a container of a document that is kept. -/
def enclosingLimit : Nat := 126

/-- Whether a list has at most a given length; longer lists are not walked to their end. -/
def hasAtMost {α : Type} : Nat → List α → Bool
  | _, [] => true
  | 0, _ :: _ => false
  | n + 1, _ :: rest => hasAtMost n rest

/-- A container inside others, unreadable when there are too many of them. -/
def bounded {α : Type} (enclosing : List α) (container : Document) : Document :=
  if hasAtMost enclosingLimit enclosing then container else .unreadable

mutual

/-- The value of a document, unless a part of it is unreadable. -/
def value? : Document → Option Value
  | .null => some .null
  | .bool b => some (.bool b)
  | .number n => some (.number n)
  | .string s => some (.string s)
  | .array items => (values? items).map .array
  | .object members => (members? members).map (fun kept => .object (Assoc.collect kept))
  | .unreadable => none

def values? : List Document → Option (List Value)
  | [] => some []
  | document :: rest =>
      match value? document, values? rest with
      | some value, some values => some (value :: values)
      | _, _ => none

/-- The members of an object with their values, as they are written. -/
def members? : List (Option String × Document) → Option (List (String × Value))
  | [] => some []
  | (some key, document) :: rest =>
      match value? document, members? rest with
      | some value, some members => some ((key, value) :: members)
      | _, _ => none
  | (none, _) :: _ => none

end

mutual

def ofValue : Value → Document
  | .null => .null
  | .bool b => .bool b
  | .number n => .number n
  | .string s => .string s
  | .array items => .array (ofValues items)
  | .object members => .object (ofMembers members)

def ofValues : List Value → List Document
  | [] => []
  | value :: rest => ofValue value :: ofValues rest

/-- The members that spell the members of an object. -/
def ofMembers : List (String × Value) → List (Option String × Document)
  | [] => []
  | (key, value) :: rest => (some key, ofValue value) :: ofMembers rest

end

theorem canonicalMembers_foldl_insert
    (members : List (String × Value)) {held : List (String × Value)}
    (hmembers : Value.CanonicalMembers members) (hheld : Value.CanonicalMembers held) :
    Value.CanonicalMembers
      (members.foldl (fun held pair => Assoc.insert pair.1 pair.2 held) held) := by
  induction members generalizing held with
  | nil => exact hheld
  | cons pair rest ih =>
    refine ih hmembers.2 ?_
    clear ih
    induction held with
    | nil => exact ⟨hmembers.1, trivial⟩
    | cons head tail ih =>
      simp only [Assoc.insert]
      split
      · exact ⟨hmembers.1, hheld⟩
      · split
        · exact ⟨hheld.1, ih hheld.2⟩
        · exact ⟨hmembers.1, hheld.2⟩

mutual

theorem canonical_of_value? :
    ∀ (document : Document) (value : Value), document.value? = some value → value.Canonical
  | .null, _, h => by cases h; simp [Value.Canonical]
  | .bool _, _, h => by cases h; simp [Value.Canonical]
  | .number _, _, h => by cases h; simp [Value.Canonical]
  | .string _, _, h => by cases h; simp [Value.Canonical]
  | .array items, value, h => by
    obtain ⟨values, hvalues, rfl⟩ := Option.map_eq_some_iff.1 (by simpa [value?] using h)
    simpa [Value.Canonical] using canonical_of_values? items values hvalues
  | .object members, value, h => by
    obtain ⟨kept, hkept, rfl⟩ := Option.map_eq_some_iff.1 (by simpa [value?] using h)
    refine ⟨Assoc.ascending_collect kept, ?_⟩
    exact canonicalMembers_foldl_insert kept (canonical_of_members? members kept hkept) trivial
  | .unreadable, _, h => by simp [value?] at h

theorem canonical_of_values? :
    ∀ (documents : List Document) (values : List Value),
      values? documents = some values → Value.CanonicalItems values
  | [], _, h => by cases h; trivial
  | document :: rest, values, h => by
    simp only [values?] at h
    split at h
    · next value tail hvalue htail =>
      cases h
      exact ⟨canonical_of_value? document value hvalue, canonical_of_values? rest tail htail⟩
    · cases h

theorem canonical_of_members? :
    ∀ (members : List (Option String × Document)) (kept : List (String × Value)),
      members? members = some kept → Value.CanonicalMembers kept
  | [], _, h => by cases h; trivial
  | (some key, document) :: rest, kept, h => by
    simp only [members?] at h
    split at h
    · next value tail hvalue htail =>
      cases h
      exact ⟨canonical_of_value? document value hvalue, canonical_of_members? rest tail htail⟩
    · cases h
  | (none, _) :: _, _, h => by simp [members?] at h

end

/-- The datum that a document denotes, unless a part of it is unreadable. -/
def datum? (document : Document) : Option Datum :=
  match h : document.value? with
  | some value => some ⟨value, canonical_of_value? document value h⟩
  | none => none

end Document

end Cascade.Json
