/-!
# UTF-8

Strict decoding of bytes: shortest forms only, no surrogates and nothing past
U+10FFFF.  A byte that opens a longer form fixes how many bytes follow and the
range of the first of them, which is where the excluded forms are cut off.
-/

namespace Cascade.Text

/-- What is known after some bytes of a form of several bytes. -/
structure Utf8Lead where
  value : Nat
  more : Nat
  low : Nat
  high : Nat

/-- The form that a byte above the ASCII range opens, if it opens one. -/
def Utf8Lead.ofByte? (byte : Nat) : Option Utf8Lead :=
  if byte < 0xC2 then none
  else if byte ≤ 0xDF then some ⟨byte - 0xC0, 0, 0x80, 0xBF⟩
  else if byte = 0xE0 then some ⟨0, 1, 0xA0, 0xBF⟩
  else if byte = 0xED then some ⟨0xD, 1, 0x80, 0x9F⟩
  else if byte ≤ 0xEF then some ⟨byte - 0xE0, 1, 0x80, 0xBF⟩
  else if byte = 0xF0 then some ⟨0, 2, 0x90, 0xBF⟩
  else if byte ≤ 0xF3 then some ⟨byte - 0xF0, 2, 0x80, 0xBF⟩
  else if byte = 0xF4 then some ⟨4, 2, 0x80, 0x8F⟩
  else none

/-- Decode bytes of which `pending` has already been read from an unfinished form. -/
def decodeUtf8After : Option Utf8Lead → List UInt8 → Option (List Char)
  | none, [] => some []
  | some _, [] => none
  | none, byte :: rest =>
      if byte.toNat < 0x80 then
        (decodeUtf8After none rest).map (Char.ofNat byte.toNat :: ·)
      else
        match Utf8Lead.ofByte? byte.toNat with
        | some lead => decodeUtf8After (some lead) rest
        | none => none
  | some lead, byte :: rest =>
      if lead.low ≤ byte.toNat ∧ byte.toNat ≤ lead.high then
        let value := lead.value * 64 + (byte.toNat - 0x80)
        match lead.more with
        | 0 => (decodeUtf8After none rest).map (Char.ofNat value :: ·)
        | more + 1 => decodeUtf8After (some ⟨value, more, 0x80, 0xBF⟩) rest
      else none

/-- The characters that bytes encode, or nothing if they are not UTF-8. -/
def decodeUtf8 (bytes : List UInt8) : Option (List Char) :=
  decodeUtf8After none bytes

end Cascade.Text
