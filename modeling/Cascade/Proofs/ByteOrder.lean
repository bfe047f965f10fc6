import Cascade.Proofs.Utf8

/-!
# The order of bytes

Texts are compared character by character.  UTF-8 is made so that this is also the
order of their bytes: of two characters the smaller has the smaller byte where
their encodings first differ, and neither encoding begins the other.
-/

namespace Cascade.Text

/-- The bytes of a text in UTF-8. -/
def bytes (text : String) : List UInt8 :=
  text.toUTF8.data.toList

theorem bytes_eq (text : String) : bytes text = text.toList.flatMap String.utf8EncodeChar := by
  have hbytes : text.toByteArray = text.toList.utf8Encode := by
    rw [← String.toByteArray_ofList, String.ofList_toList]
  rw [bytes, String.toUTF8_eq_toByteArray, hbytes, List.utf8Encode, List.data_toByteArray]

/-- Two sequences of bytes differ at some place, and the first has the smaller byte there. -/
def Below (first second : List UInt8) : Prop :=
  ∃ common x y rest others, first = common ++ x :: rest ∧ second = common ++ y :: others ∧ x < y

theorem Below.cons {first second : List UInt8} (h : Below first second) (byte : UInt8) :
    Below (byte :: first) (byte :: second) := by
  obtain ⟨common, x, y, rest, others, rfl, rfl, hlt⟩ := h
  exact ⟨byte :: common, x, y, rest, others, rfl, rfl, hlt⟩

theorem below_cons_of_lt {x y : UInt8} (h : x.toNat < y.toNat) (rest others : List UInt8) :
    Below (x :: rest) (y :: others) :=
  ⟨[], x, y, rest, others, rfl, rfl, UInt8.lt_iff_toNat_lt.2 h⟩

theorem lt_append_left {first second : List UInt8} (h : first < second) (common : List UInt8) :
    common ++ first < common ++ second := by
  induction common with
  | nil => exact h
  | cons byte common ih => exact List.cons_lt_cons_iff.2 (Or.inr ⟨rfl, ih⟩)

theorem Below.append_lt {first second : List UInt8} (h : Below first second)
    (rest others : List UInt8) : first ++ rest < second ++ others := by
  obtain ⟨common, x, y, _, _, rfl, rfl, hlt⟩ := h
  rw [List.append_assoc, List.append_assoc]
  exact lt_append_left (List.cons_lt_cons_iff.2 (Or.inl hlt)) common

/-- Of two numbers with the same lead the smaller has the smaller last bytes. -/
theorem below_continuation
    {value other : Nat} (hlt : value < other) (count : Nat)
    (hlead : value / 64 ^ count = other / 64 ^ count) :
    Below (continuation count value) (continuation count other) := by
  induction count with
  | zero =>
      rw [Nat.pow_zero, Nat.div_one, Nat.div_one] at hlead
      omega
  | succ count ih =>
      have hle : value / 64 ^ count ≤ other / 64 ^ count := Nat.div_le_div_right (Nat.le_of_lt hlt)
      rw [Nat.pow_succ, ← Nat.div_div_eq_div_mul, ← Nat.div_div_eq_div_mul] at hlead
      rcases Nat.eq_or_lt_of_le hle with hsame | hless
      · rw [continuation, continuation, hsame]
        exact (ih hsame).cons _
      · apply below_cons_of_lt
        rw [UInt8.toNat_ofNat_of_lt' (Nat.lt_of_lt_of_le (m := 0xC0) (by omega) (by decide)),
          UInt8.toNat_ofNat_of_lt' (Nat.lt_of_lt_of_le (m := 0xC0) (by omega) (by decide))]
        omega

theorem add_div_lt_or {value other : Nat} (hlt : value < other) (base size : Nat) :
    base + value / size < base + other / size ∨
      base + value / size = base + other / size ∧ value / size = other / size := by
  have hle : value / size ≤ other / size := Nat.div_le_div_right (Nat.le_of_lt hlt)
  rcases Nat.eq_or_lt_of_le hle with hsame | hless
  · exact Or.inr ⟨congrArg _ hsame, hsame⟩
  · exact Or.inl (Nat.add_lt_add_left hless base)

/-- The smaller of two numbers above the ASCII range has the smaller lead byte, or both have the
same one and as many bytes behind it. -/
theorem leadByte_lt_or
    {value other : Nat} (hlt : value < other) :
    leadByte value < leadByte other ∨
      leadByte value = leadByte other ∧ following value = following other ∧
        value / 64 ^ following value = other / 64 ^ following value := by
  unfold leadByte following
  -- either the shorter one's lead byte lies in a lower range, or both have equally many bytes
  by_cases htwo : value < 0x800
  · by_cases hother : other < 0x800
    · simp only [htwo, hother, if_true, Nat.pow_one]
      rcases add_div_lt_or hlt _ 64 with hless | ⟨hsame, hlead⟩
      · exact Or.inl hless
      · exact Or.inr ⟨hsame, trivial, hlead⟩
    · grind
  · by_cases hthree : value < 0x10000
    · by_cases hother : other < 0x10000
      · have hnot : ¬other < 0x800 := by omega
        simp only [htwo, hthree, hother, hnot, if_true, if_false, Nat.reducePow]
        rcases add_div_lt_or hlt _ 4096 with hless | ⟨hsame, hlead⟩
        · exact Or.inl hless
        · exact Or.inr ⟨hsame, trivial, hlead⟩
      · grind
    · have hnot : ¬other < 0x800 ∧ ¬other < 0x10000 := by omega
      simp only [htwo, hthree, hnot.1, hnot.2, if_false, Nat.reducePow]
      rcases add_div_lt_or hlt _ 262144 with hless | ⟨hsame, hlead⟩
      · exact Or.inl hless
      · exact Or.inr ⟨hsame, trivial, hlead⟩

/-- The smaller of two characters has the smaller byte where their encodings first differ. -/
theorem below_utf8EncodeChar {c d : Char} (h : c < d) :
    Below (String.utf8EncodeChar c) (String.utf8EncodeChar d) := by
  have hlt : c.toNat < d.toNat := h
  have hc := isValidChar_toNat c
  have hd := isValidChar_toNat d
  by_cases hascii : c.toNat < 0x80
  · rw [utf8EncodeChar_of_lt hascii]
    have hbyte : (UInt8.ofNat c.toNat).toNat = c.toNat :=
      UInt8.toNat_ofNat_of_lt' (Nat.lt_of_lt_of_le hascii (by decide))
    by_cases hother : d.toNat < 0x80
    · rw [utf8EncodeChar_of_lt hother]
      apply below_cons_of_lt
      rw [hbyte, UInt8.toNat_ofNat_of_lt' (Nat.lt_of_lt_of_le hother (by decide))]
      exact hlt
    · rw [utf8EncodeChar_of_le (by omega)]
      apply below_cons_of_lt
      rw [hbyte, toNat_ofNat_leadByte hd]
      grind [leadByte]
  · rw [utf8EncodeChar_of_le (by omega), utf8EncodeChar_of_le (by omega)]
    rcases leadByte_lt_or hlt with hless | ⟨hsame, hcount, hlead⟩
    · apply below_cons_of_lt
      rw [toNat_ofNat_leadByte hc, toNat_ofNat_leadByte hd]
      exact hless
    · rw [hsame, ← hcount]
      exact (below_continuation hlt _ hlead).cons _

theorem encode_lt_of_lt {first second : List Char} (h : first < second) :
    first.flatMap String.utf8EncodeChar < second.flatMap String.utf8EncodeChar := by
  induction first generalizing second with
  | nil =>
      cases second with
      | nil => exact absurd h (List.lt_irrefl [])
      | cons d second =>
          rw [List.flatMap_cons, List.flatMap_nil]
          obtain ⟨byte, others, hbytes⟩ :=
            List.exists_cons_of_ne_nil (String.utf8EncodeChar_ne_nil (c := d))
          rw [hbytes]
          exact List.nil_lt_cons _ _
  | cons c first ih =>
      cases second with
      | nil => exact absurd h (List.not_lt_nil _)
      | cons d second =>
          rw [List.flatMap_cons, List.flatMap_cons]
          rcases List.cons_lt_cons_iff.1 h with hless | ⟨rfl, hrest⟩
          · exact (below_utf8EncodeChar hless).append_lt _ _
          · exact lt_append_left (ih hrest) _

/-- One text comes before another exactly if its bytes do. -/
theorem bytes_lt_iff {a b : String} : bytes a < bytes b ↔ a < b := by
  rw [bytes_eq, bytes_eq]
  refine ⟨fun h => ?_, fun h => encode_lt_of_lt (String.lt_iff.1 h)⟩
  by_cases hab : a < b
  · exact hab
  · by_cases hba : b < a
    · exact absurd h (List.lt_asymm (encode_lt_of_lt (String.lt_iff.1 hba)))
    · have hsame : a = b := String.le_antisymm (String.not_lt.1 hba) (String.not_lt.1 hab)
      subst hsame
      exact absurd h (List.lt_irrefl _)

end Cascade.Text
