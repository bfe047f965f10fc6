import Cascade.WriteError
import Cascade.Json.Fields
import Cascade.Json.Reader
import Cascade.Text.Utf8

/-!
# Policies

A policy says when buffered writes are pushed to the store: how many parameter
sets one text gathers, how many writes one group gathers, whether statements
and records may wait side by side, and whether inserts ask for generated keys.
-/

namespace Cascade

open Json

/-- When buffered writes are pushed to the store. -/
structure Policy where
  /-- How many parameter sets of one text are executed as one call. -/
  batchSize : Nat := 20
  /-- Whether what is buffered is flushed before the other kind of request is buffered. -/
  flushOnMixed : Bool := true
  fetchKeys : Bool := true
  capMultiplier : Nat := 10
  deriving DecidableEq, Repr, Inhabited

namespace Policy

def greatestCount : Nat := Nat.pow 2 64 - 1

/-- How many writes one group gathers before it forces a flush. -/
def cap (p : Policy) : Nat :=
  min (p.batchSize * p.capMultiplier) greatestCount

def fault? (p : Policy) : Option PolicyError :=
  if p.batchSize = 0 then some .zeroBatchSize
  else if p.capMultiplier = 0 then some .zeroCapMultiplier
  else none

def check (p : Policy) : Except PolicyError Policy :=
  match p.fault? with
  | some cause => .error cause
  | none => .ok p

theorem eq_of_check {p q : Policy} (h : p.check = .ok q) : q = p := by
  unfold check at h
  split at h
  · cases h
  · cases h
    rfl

def fieldNames : List String :=
  ["batch_size", "flush_on_mixed", "fetch_generated_keys", "buffer_cap_multiplier"]

/-- Read a policy; fields that are missing have their usual values. -/
def ofDocument? (document : Document) : Option Policy :=
  match document.fields? fieldNames with
  | none => none
  | some fields =>
      let usual : Policy := {}
      match fields.withDefault "batch_size" usual.batchSize Document.count?,
        fields.withDefault "flush_on_mixed" usual.flushOnMixed Document.bool?,
        fields.withDefault "fetch_generated_keys" usual.fetchKeys Document.bool?,
        fields.withDefault "buffer_cap_multiplier" usual.capMultiplier Document.count? with
      | some batchSize, some flushOnMixed, some fetchKeys, some capMultiplier =>
          some ⟨batchSize, flushOnMixed, fetchKeys, capMultiplier⟩
      | _, _, _, _ => none

def toValue (p : Policy) : Value :=
  .ofMembers [
    ("batch_size", .ofNat p.batchSize),
    ("flush_on_mixed", .bool p.flushOnMixed),
    ("fetch_generated_keys", .bool p.fetchKeys),
    ("buffer_cap_multiplier", .ofNat p.capMultiplier)]

def ofText (text : List Char) : Except PolicyError Policy :=
  match (Document.read? text).bind ofDocument? with
  | some p => p.check
  | none => .error .malformed

/-- Read and check a policy from the content of a file, which may be missing. -/
def ofFile (content : Option (List UInt8)) : Except PolicyError Policy :=
  match content.bind Text.decodeUtf8 with
  | some text => ofText text
  | none => .error .unreadable

end Policy

end Cascade
