import Cascade.Text.Utf8
import Mathlib.Algebra.Group.Nat.Defs

/-!
# What bytes decode to

The decoder reads a form of several bytes from its lead byte on and keeps the
number that the bytes so far have spelled.  It accepts bytes exactly if they are
the encoding of some characters, one after the other, and yields these
characters.
-/

namespace Cascade.Text

/-- The last bytes of the form of a number: six bits each, the highest first. -/
def continuation : Nat → Nat → List UInt8
  | 0, _ => []
  | count + 1, value => UInt8.ofNat (value / 64 ^ count % 64 + 0x80) :: continuation count value

theorem exists_continuation_eq (count value : Nat) :
    ∃ front, continuation (count + 1) value = front ++ [UInt8.ofNat (value % 64 + 0x80)] := by
  induction count with
  | zero => exact ⟨[], by simp [continuation]⟩
  | succ count ih =>
      obtain ⟨front, hfront⟩ := ih
      exact ⟨_ :: front, congrArg (List.cons _) hfront⟩

/-- Whether a form that has been begun can turn out to be that of a number. -/
structure Utf8Lead.Begins (lead : Utf8Lead) (value : Nat) : Prop where
  begun : value / 64 ^ (lead.more + 1) = lead.value
  low : lead.low ≤ value / 64 ^ lead.more % 64 + 0x80
  high : value / 64 ^ lead.more % 64 + 0x80 ≤ lead.high

theorem div_pow_eq_iff {value begun digit count : Nat} (h : digit < 64) :
    value / 64 ^ count = begun * 64 + digit ↔
      value / 64 ^ (count + 1) = begun ∧ value / 64 ^ count % 64 = digit := by
  rw [Nat.pow_succ, ← Nat.div_div_eq_div_mul]
  omega

/-- A byte in the range of a form that has been begun adds six bits to it. -/
theorem decodeUtf8After_some_cons
    (begun more low high : Nat) (byte : UInt8) (rest : List UInt8) :
    decodeUtf8After (some ⟨begun, more, low, high⟩) (byte :: rest) =
      if low ≤ byte.toNat ∧ byte.toNat ≤ high then
        match more with
        | 0 => (decodeUtf8After none rest).map
            (Char.ofNat (begun * 64 + (byte.toNat - 0x80)) :: ·)
        | more + 1 => decodeUtf8After
            (some ⟨begun * 64 + (byte.toNat - 0x80), more, 0x80, 0xBF⟩) rest
      else none :=
  rfl

/-- A byte in the range is the next one of the numbers that begin with it. -/
theorem begins_iff
    {begun more low high : Nat} (hlow : 0x80 ≤ low) (hhigh : high ≤ 0xBF) (byte : UInt8)
    (value : Nat) :
    Utf8Lead.Begins ⟨begun, more, low, high⟩ value ∧
        byte = UInt8.ofNat (value / 64 ^ more % 64 + 0x80) ↔
      (low ≤ byte.toNat ∧ byte.toNat ≤ high) ∧
        value / 64 ^ more = begun * 64 + (byte.toNat - 0x80) := by
  have hsmall : value / 64 ^ more % 64 + 0x80 < 256 := by
    omega
  rw [← UInt8.toNat_inj, UInt8.toNat_ofNat_of_lt' hsmall]
  constructor
  · rintro ⟨⟨hbegun, hleast, hgreatest⟩, hbyte⟩
    rw [hbyte, div_pow_eq_iff (by omega)]
    exact ⟨⟨hleast, hgreatest⟩, hbegun, by omega⟩
  · rintro ⟨⟨hleast, hgreatest⟩, hvalue⟩
    obtain ⟨hbegun, hdigit⟩ := (div_pow_eq_iff (by omega)).1 hvalue
    exact ⟨⟨hbegun, by simp only; omega, by simp only; omega⟩, by omega⟩

/-- A form that has been begun goes on with the bytes of a number that it can be the form of. -/
theorem decodeUtf8After_some_iff
    {begun more low high : Nat} (hlow : 0x80 ≤ low) (hhigh : high ≤ 0xBF)
    (bytes : List UInt8) (chars : List Char) :
    decodeUtf8After (some ⟨begun, more, low, high⟩) bytes = some chars ↔
      ∃ value rest others, Utf8Lead.Begins ⟨begun, more, low, high⟩ value ∧
        bytes = continuation (more + 1) value ++ rest ∧
        decodeUtf8After none rest = some others ∧ chars = Char.ofNat value :: others := by
  induction more generalizing begun low high bytes with
  | zero =>
      cases bytes with
      | nil => simp [decodeUtf8After, continuation]
      | cons byte rest =>
          rw [decodeUtf8After_some_cons]
          constructor
          · intro h
            split at h
            · next hrange =>
              obtain ⟨others, hothers, rfl⟩ := Option.map_eq_some_iff.1 h
              have hvalue : (begun * 64 + (byte.toNat - 0x80)) / 64 ^ 0 =
                  begun * 64 + (byte.toNat - 0x80) :=
                Nat.div_one _
              obtain ⟨hbegins, hbyte⟩ := (begins_iff hlow hhigh byte _).2 ⟨hrange, hvalue⟩
              exact ⟨_, rest, others, hbegins, congrArg (· :: rest) hbyte, hothers, rfl⟩
            · cases h
          · rintro ⟨value, rest', others, hbegins, hbytes, hothers, rfl⟩
            obtain ⟨hbyte, rfl⟩ := List.cons.inj hbytes
            obtain ⟨hrange, hvalue⟩ := (begins_iff hlow hhigh byte value).1 ⟨hbegins, hbyte⟩
            rw [Nat.pow_zero, Nat.div_one] at hvalue
            rw [if_pos hrange, ← hvalue]
            exact Option.map_eq_some_iff.2 ⟨others, hothers, rfl⟩
  | succ more ih =>
      cases bytes with
      | nil => simp [decodeUtf8After, continuation]
      | cons byte rest =>
          rw [decodeUtf8After_some_cons]
          constructor
          · intro h
            split at h
            · next hrange =>
              obtain ⟨value, rest', others, hbegins, rfl, hothers, rfl⟩ :=
                (ih (Nat.le_refl _) (Nat.le_refl _) rest).1 h
              obtain ⟨hbegins', hbyte⟩ :=
                (begins_iff hlow hhigh byte value).2 ⟨hrange, hbegins.begun⟩
              exact ⟨value, rest', others, hbegins', congrArg (· :: _) hbyte, hothers, rfl⟩
            · cases h
          · rintro ⟨value, rest', others, hbegins, hbytes, hothers, rfl⟩
            obtain ⟨hbyte, rfl⟩ := List.cons.inj hbytes
            obtain ⟨hrange, hvalue⟩ := (begins_iff hlow hhigh byte value).1 ⟨hbegins, hbyte⟩
            rw [if_pos hrange]
            refine (ih (Nat.le_refl _) (Nat.le_refl _) _).2
              ⟨value, rest', others, ⟨hvalue, ?_, ?_⟩, rfl, hothers, rfl⟩
            · exact Nat.le_add_left _ _
            · simp only; omega

/-- The bytes that open a form, by the number of bytes that follow. -/
theorem ofByte?_eq_some_iff {byte : Nat} {lead : Utf8Lead} :
    Utf8Lead.ofByte? byte = some lead ↔
      (0xC2 ≤ byte ∧ byte ≤ 0xDF ∧ lead = ⟨byte - 0xC0, 0, 0x80, 0xBF⟩) ∨
      (0xE0 ≤ byte ∧ byte ≤ 0xEF ∧ lead = ⟨byte - 0xE0, 1,
        if byte = 0xE0 then 0xA0 else 0x80, if byte = 0xED then 0x9F else 0xBF⟩) ∨
      (0xF0 ≤ byte ∧ byte ≤ 0xF4 ∧ lead = ⟨byte - 0xF0, 2,
        if byte = 0xF0 then 0x90 else 0x80, if byte = 0xF4 then 0x8F else 0xBF⟩) := by
  grind [Utf8Lead.ofByte?]

/-- The lead byte of a number above the ASCII range. -/
def leadByte (value : Nat) : Nat :=
  if value < 0x800 then 0xC0 + value / 0x40
  else if value < 0x10000 then 0xE0 + value / 0x1000
  else 0xF0 + value / 0x40000

/-- How many bytes follow the lead byte of a number above the ASCII range. -/
def following (value : Nat) : Nat :=
  if value < 0x800 then 1 else if value < 0x10000 then 2 else 3

theorem leadByte_of_begins
    {byte : Nat} {lead : Utf8Lead} {value : Nat} (hlead : Utf8Lead.ofByte? byte = some lead)
    (hbegins : lead.Begins value) :
    0x80 ≤ value ∧ value.isValidChar ∧ leadByte value = byte ∧ following value = lead.more + 1 := by
  obtain ⟨hbegun, hlow, hhigh⟩ := hbegins
  unfold Nat.isValidChar
  rcases ofByte?_eq_some_iff.1 hlead with ⟨hleast, hgreatest, rfl⟩ | ⟨hleast, hgreatest, rfl⟩ |
    ⟨hleast, hgreatest, rfl⟩
  · grind [leadByte, following]
  · grind [leadByte, following]
  · grind [leadByte, following]

theorem exists_begins {value : Nat} (h : 0x80 ≤ value) (hvalid : value.isValidChar) :
    ∃ lead, Utf8Lead.ofByte? (leadByte value) = some lead ∧ lead.Begins value := by
  unfold Nat.isValidChar at hvalid
  by_cases htwo : value < 0x800
  · refine ⟨⟨value / 0x40, 0, 0x80, 0xBF⟩, ?_, ?_⟩
    · grind [leadByte, ofByte?_eq_some_iff]
    · constructor <;> grind
  · by_cases hthree : value < 0x10000
    · refine ⟨⟨value / 0x1000, 1, if value < 0x1000 then 0xA0 else 0x80,
        if value / 0x1000 = 0xD then 0x9F else 0xBF⟩, ?_, ?_⟩
      · grind [leadByte, ofByte?_eq_some_iff]
      · constructor <;> grind
    · refine ⟨⟨value / 0x40000, 2, if value < 0x40000 then 0x90 else 0x80,
        if value / 0x40000 = 4 then 0x8F else 0xBF⟩, ?_, ?_⟩
      · grind [leadByte, ofByte?_eq_some_iff]
      · constructor <;> grind

theorem toNat_ofNat {value : Nat} (h : value.isValidChar) : (Char.ofNat value).toNat = value := by
  rw [Char.ofNat, dif_pos h]
  rfl

theorem isValidChar_toNat (c : Char) : c.toNat.isValidChar :=
  c.valid

theorem utf8EncodeChar_of_lt {c : Char} (h : c.toNat < 0x80) :
    String.utf8EncodeChar c = [UInt8.ofNat c.toNat] :=
  if_pos (Nat.le_of_lt_succ h)

/-- The encoding of a character above the ASCII range is its lead byte and what follows it. -/
theorem utf8EncodeChar_of_le {c : Char} (h : 0x80 ≤ c.toNat) :
    String.utf8EncodeChar c =
      UInt8.ofNat (leadByte c.toNat) :: continuation (following c.toNat) c.toNat := by
  have hvalid := isValidChar_toNat c
  unfold Nat.isValidChar at hvalid
  rw [String.utf8EncodeChar]
  simp only [Char.toNat_val]
  generalize c.toNat = value at h hvalid
  unfold leadByte following
  rw [if_neg (by omega)]
  by_cases htwo : value < 0x800
  · rw [if_pos (by omega), if_pos htwo, if_pos htwo, Nat.mod_eq_of_lt (by omega), Nat.add_comm]
    simp [continuation]
  · rw [if_neg (by omega), if_neg htwo, if_neg htwo]
    by_cases hthree : value < 0x10000
    · rw [if_pos (by omega), if_pos hthree, if_pos hthree, Nat.mod_eq_of_lt (by omega),
        Nat.add_comm]
      simp [continuation]
    · rw [if_neg (by omega), if_neg hthree, if_neg hthree,
        Nat.mod_eq_of_lt (a := value / 262144) (by omega), Nat.add_comm]
      simp [continuation]

theorem toNat_ofNat_leadByte {value : Nat} (hvalid : value.isValidChar) :
    (UInt8.ofNat (leadByte value)).toNat = leadByte value := by
  unfold Nat.isValidChar at hvalid
  exact UInt8.toNat_ofNat_of_lt' (by grind [leadByte])

theorem ofByte?_bounds {byte : Nat} {lead : Utf8Lead} (h : Utf8Lead.ofByte? byte = some lead) :
    0x80 ≤ byte ∧ 0x80 ≤ lead.low ∧ lead.high ≤ 0xBF := by
  grind [ofByte?_eq_some_iff]

/-- The encoding of a character in front of bytes that decode adds the character. -/
theorem decodeUtf8_utf8EncodeChar_append
    (c : Char) {rest : List UInt8} {others : List Char} (h : decodeUtf8 rest = some others) :
    decodeUtf8 (String.utf8EncodeChar c ++ rest) = some (c :: others) := by
  by_cases hascii : c.toNat < 0x80
  · have hbyte : (UInt8.ofNat c.toNat).toNat = c.toNat :=
      UInt8.toNat_ofNat_of_lt' (Nat.lt_of_lt_of_le hascii (by decide))
    rw [utf8EncodeChar_of_lt hascii, List.singleton_append, decodeUtf8, decodeUtf8After, hbyte,
      if_pos hascii, Char.ofNat_toNat]
    exact Option.map_eq_some_iff.2 ⟨others, h, rfl⟩
  · have hvalid := isValidChar_toNat c
    obtain ⟨lead, hlead, hbegins⟩ := exists_begins (by omega) hvalid
    obtain ⟨hbyte, hlow, hhigh⟩ := ofByte?_bounds hlead
    obtain ⟨-, -, -, hfollowing⟩ := leadByte_of_begins hlead hbegins
    rw [utf8EncodeChar_of_le (by omega), List.cons_append, decodeUtf8, decodeUtf8After,
      toNat_ofNat_leadByte hvalid, if_neg (by omega), hlead, hfollowing]
    exact (decodeUtf8After_some_iff hlow hhigh _ _).2
      ⟨c.toNat, rest, others, hbegins, rfl, h, by rw [Char.ofNat_toNat]⟩

/-- Bytes that decode begin with the encoding of a character. -/
theorem exists_of_decodeUtf8
    {byte : UInt8} {bytes : List UInt8} {chars : List Char}
    (h : decodeUtf8 (byte :: bytes) = some chars) :
    ∃ c rest others, byte :: bytes = String.utf8EncodeChar c ++ rest ∧
      decodeUtf8 rest = some others ∧ chars = c :: others := by
  rw [decodeUtf8, decodeUtf8After] at h
  split at h
  · next hascii =>
    obtain ⟨others, hothers, rfl⟩ := Option.map_eq_some_iff.1 h
    have hvalue : (Char.ofNat byte.toNat).toNat = byte.toNat :=
      toNat_ofNat (.inl (by omega))
    refine ⟨_, bytes, others, ?_, hothers, rfl⟩
    rw [utf8EncodeChar_of_lt (hvalue.symm ▸ hascii), hvalue, UInt8.ofNat_toNat]
    rfl
  · split at h
    · next lead hlead =>
      obtain ⟨hbyte, hlow, hhigh⟩ := ofByte?_bounds hlead
      obtain ⟨value, rest, others, hbegins, rfl, hothers, rfl⟩ :=
        (decodeUtf8After_some_iff hlow hhigh bytes chars).1 h
      obtain ⟨hleast, hvalid, hlead', hfollowing⟩ := leadByte_of_begins hlead hbegins
      refine ⟨_, rest, others, ?_, hothers, rfl⟩
      rw [utf8EncodeChar_of_le (by rwa [toNat_ofNat hvalid]), toNat_ofNat hvalid, hlead',
        hfollowing, UInt8.ofNat_toNat]
      rfl
    · cases h

/-- Bytes decode to some characters exactly if they are the encodings of these characters. -/
theorem decodeUtf8_eq_some_iff {bytes : List UInt8} {chars : List Char} :
    decodeUtf8 bytes = some chars ↔ bytes = chars.flatMap String.utf8EncodeChar := by
  induction chars generalizing bytes with
  | nil =>
      constructor
      · intro h
        cases bytes with
        | nil => rfl
        | cons byte bytes =>
            obtain ⟨_, _, _, -, -, hchars⟩ := exists_of_decodeUtf8 h
            cases hchars
      · rintro rfl
        rfl
  | cons c chars ih =>
      constructor
      · intro h
        cases bytes with
        | nil => cases h
        | cons byte bytes =>
            obtain ⟨_, rest, _, hbytes, hrest, hchars⟩ := exists_of_decodeUtf8 h
            obtain ⟨rfl, rfl⟩ := List.cons.inj hchars
            rw [hbytes, List.flatMap_cons, ← ih.1 hrest]
      · rintro rfl
        exact decodeUtf8_utf8EncodeChar_append c (ih.2 rfl)

/-- Only the encoding of a character in the ASCII range ends with a byte in this range. -/
theorem eq_nil_of_utf8EncodeChar_eq
    {c : Char} {front : List UInt8} {byte : UInt8} (h : String.utf8EncodeChar c = front ++ [byte])
    (hascii : byte.toNat < 0x80) :
    front = [] ∧ c = Char.ofNat byte.toNat := by
  by_cases hlow : c.toNat < 0x80
  · rw [utf8EncodeChar_of_lt hlow] at h
    rw [← List.nil_append [UInt8.ofNat c.toNat]] at h
    obtain ⟨rfl, hbyte⟩ := List.append_inj' h rfl
    have hvalue : (UInt8.ofNat c.toNat).toNat = c.toNat :=
      UInt8.toNat_ofNat_of_lt' (Nat.lt_of_lt_of_le hlow (by decide))
    rw [← (List.cons.inj hbyte).1, hvalue, Char.ofNat_toNat]
    exact ⟨rfl, rfl⟩
  · obtain ⟨count, hcount⟩ : ∃ count, following c.toNat = count + 1 :=
      Nat.exists_eq_add_one.2 (by grind [following])
    obtain ⟨begun, hbegun⟩ := exists_continuation_eq count c.toNat
    rw [utf8EncodeChar_of_le (by omega), hcount, hbegun, ← List.cons_append] at h
    have hbyte := (List.cons.inj (List.append_inj' h rfl).2).1
    have hvalue : (UInt8.ofNat (c.toNat % 64 + 0x80)).toNat = c.toNat % 64 + 0x80 :=
      UInt8.toNat_ofNat_of_lt' (Nat.lt_of_lt_of_le (m := 0xC0) (by omega) (by decide))
    rw [hbyte] at hvalue
    omega

/-- A byte in the ASCII range adds its character to what the bytes in front of it encode. -/
theorem decodeUtf8_append_ascii (bytes : List UInt8) {byte : UInt8} (h : byte.toNat < 0x80) :
    decodeUtf8 (bytes ++ [byte]) = (decodeUtf8 bytes).map (· ++ [Char.ofNat byte.toNat]) := by
  have hvalue : (Char.ofNat byte.toNat).toNat = byte.toNat :=
    toNat_ofNat (.inl (by omega))
  have hencode : String.utf8EncodeChar (Char.ofNat byte.toNat) = [byte] := by
    rw [utf8EncodeChar_of_lt (by omega), hvalue, UInt8.ofNat_toNat]
  ext chars
  simp only [Option.map_eq_some_iff, decodeUtf8_eq_some_iff]
  constructor
  · intro hbytes
    rcases List.eq_nil_or_concat chars with rfl | ⟨others, c, rfl⟩
    · simp at hbytes
    · rw [List.concat_eq_append, List.flatMap_append, List.flatMap_singleton] at hbytes
      rcases List.eq_nil_or_concat (String.utf8EncodeChar c) with hnone | ⟨front, last, hlast⟩
      · exact absurd hnone (String.utf8EncodeChar_ne_nil)
      · rw [List.concat_eq_append] at hlast ⊢
        rw [hlast, ← List.append_assoc] at hbytes
        obtain ⟨rfl, hbyte⟩ := List.append_inj' hbytes rfl
        cases hbyte
        obtain ⟨rfl, rfl⟩ := eq_nil_of_utf8EncodeChar_eq hlast h
        exact ⟨others, List.append_nil _, rfl⟩
  · rintro ⟨others, rfl, rfl⟩
    rw [List.flatMap_append, List.flatMap_singleton, hencode]

end Cascade.Text
