import Cascade.Policy
import Cascade.Record.Json

/-!
# Setups

A setup says how a script is replayed: with which policy, if any, over which
descriptors, whether flushes are summarised, and at which statement the store
is to fail.
-/

namespace Cascade.Replay

open Json

/-- How a script is replayed. -/
structure Setup where
  /-- The policy under which writes are buffered; without one every write is executed at once. -/
  policy : Option Policy
  summarise : Bool
  descriptors : List Descriptor
  /-- The position at which a statement is to fail. -/
  failAt : Option Nat
  deriving DecidableEq

/-- What is wrong with a setup. -/
inductive SetupError where
  | unreadable
  | malformed
  | policy (cause : PolicyError)
  | noDescriptor
  | repeatedRoot (root : RootType)
  | zeroFailAt
  deriving DecidableEq, Repr

namespace Setup

/-- The first root type that is in a list a second time. -/
def repeated? (seen : List RootType) : List RootType → Option RootType
  | [] => none
  | root :: rest => if root ∈ seen then some root else repeated? (root :: seen) rest

def fault? (setup : Setup) : Option SetupError :=
  match setup.policy.bind Policy.fault? with
  | some cause => some (.policy cause)
  | none =>
      if setup.descriptors.isEmpty then some .noDescriptor
      else
        match repeated? [] (setup.descriptors.map Descriptor.root) with
        | some root => some (.repeatedRoot root)
        | none => if setup.failAt = some 0 then some .zeroFailAt else none

def fieldNames : List String := ["batch", "log_summary", "descriptors", "fail_at"]

def ofDocument? (document : Document) : Option Setup :=
  match document.fields? fieldNames with
  | none => none
  | some fields =>
      match fields.withDefault "batch" none (Document.nullable? Policy.ofDocument?),
        fields.withDefault "log_summary" false Document.bool?,
        fields.required "descriptors" (Document.items? Descriptor.ofDocument?),
        fields.withDefault "fail_at" none (Document.nullable? Document.count?) with
      | some policy, some summarise, some descriptors, some failAt =>
          some ⟨policy, summarise, descriptors, failAt⟩
      | _, _, _, _ => none

def toValue (setup : Setup) : Value :=
  .ofMembers [
    ("batch", .ofOption Policy.toValue setup.policy),
    ("log_summary", .bool setup.summarise),
    ("descriptors", .array (setup.descriptors.map Descriptor.toValue)),
    ("fail_at", .ofOption .ofNat setup.failAt)]

/-- Read and check a setup from the content of a file, which may be missing. -/
def ofFile (content : Option (List UInt8)) : Except SetupError Setup :=
  match content.bind Text.decodeUtf8 with
  | none => .error .unreadable
  | some text =>
      match (Document.read? text).bind ofDocument? with
      | none => .error .malformed
      | some setup =>
          match setup.fault? with
          | some cause => .error cause
          | none => .ok setup

def registry (setup : Setup) : Registry :=
  .ofList setup.descriptors

end Setup

end Cascade.Replay
