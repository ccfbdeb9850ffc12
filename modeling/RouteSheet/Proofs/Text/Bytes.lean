import RouteSheet.Number.Notation
import RouteSheet.Text.Utf8

/-!
# Texts on the wire

The bytes of a text are those of its characters one after the other. An ASCII character
is a byte of its own that stands in the bytes of no other character, so looking for it
among the bytes is looking for it in the text. A natural number is written in ASCII
digits, which read back as the number.
-/

namespace RouteSheet

namespace Text

/-- The bytes of two texts stand one behind the other. -/
theorem bytesOf_append (s t : List Char) : bytesOf (s ++ t) = bytesOf s ++ bytesOf t :=
  List.flatMap_append

/-- The bytes of a string are those of its characters. -/
theorem toUTF8_toList (s : String) : s.toUTF8.data.toList = bytesOf s.toList := by
  have h : s.toUTF8 = s.toList.utf8Encode := by
    rw [← String.toByteArray_ofList, String.ofList_toList]
    rfl
  rw [h]
  exact List.toList_data_toByteArray

/-- The bytes of a text are as many as core counts. -/
theorem length_bytesOf (s : String) : (bytesOf s.toList).length = s.utf8ByteSize := by
  rw [← toUTF8_toList]
  rfl

/-- A character of ASCII is one byte. -/
theorem utf8EncodeChar_ascii {c : Char} (hc : c.toNat < 128) :
    String.utf8EncodeChar c = [UInt8.ofNat c.toNat] :=
  if_pos (Nat.le_of_lt_succ hc)

/-- Only the empty text has no bytes. -/
theorem bytesOf_eq_nil_iff {s : List Char} : bytesOf s = [] ↔ s = [] := by
  cases s with
  | nil => exact iff_of_true rfl rfl
  | cons c s =>
    refine iff_of_false (fun h => ?_) (List.cons_ne_nil c s)
    have hlength := congrArg List.length (List.append_eq_nil_iff.mp h).1
    rw [String.length_utf8EncodeChar, List.length_nil] at hlength
    exact absurd hlength (Nat.ne_of_gt c.utf8Size_pos)

/-- Every byte of a character that takes several bytes is 128 or more. -/
theorem le_of_mem_utf8EncodeChar {c : Char} (hc : 128 ≤ c.toNat) {b : UInt8}
    (h : b ∈ String.utf8EncodeChar c) : 128 ≤ b.toNat := by
  have hlarge : ¬ c.val.toNat ≤ 127 := Nat.not_le.mpr hc
  simp only [String.utf8EncodeChar, if_neg hlarge] at h
  split at h
  · simp only [List.mem_cons, List.not_mem_nil, or_false] at h
    rcases h with rfl | rfl <;> rw [UInt8.toNat_ofNat'] <;> omega
  · split at h
    · simp only [List.mem_cons, List.not_mem_nil, or_false] at h
      rcases h with rfl | rfl | rfl <;> rw [UInt8.toNat_ofNat'] <;> omega
    · simp only [List.mem_cons, List.not_mem_nil, or_false] at h
      rcases h with rfl | rfl | rfl | rfl <;> rw [UInt8.toNat_ofNat'] <;> omega

/-- The byte of an ASCII character is among the bytes of a text exactly when the character is
in the text. -/
theorem mem_bytesOf_iff {c : Char} (hc : c.toNat < 128) {s : List Char} :
    UInt8.ofNat c.toNat ∈ bytesOf s ↔ c ∈ s := by
  have hbyte : (UInt8.ofNat c.toNat).toNat = c.toNat := by
    rw [UInt8.toNat_ofNat']
    omega
  refine List.mem_flatMap.trans ⟨?_, fun h => ⟨c, h, ?_⟩⟩
  · rintro ⟨d, hd, hmem⟩
    rcases Nat.lt_or_ge d.toNat 128 with hsmall | hlarge
    · rw [utf8EncodeChar_ascii hsmall, List.mem_singleton] at hmem
      have hnat := congrArg UInt8.toNat hmem
      rw [hbyte, UInt8.toNat_ofNat', Nat.mod_eq_of_lt (by omega)] at hnat
      rwa [Char.toNat_inj.mp hnat]
    · have := le_of_mem_utf8EncodeChar hlarge hmem
      omega
  · rw [utf8EncodeChar_ascii hc]
    exact List.mem_singleton_self _

/-- The digits of a number write the number. -/
theorem natOfDigits_natDigits (n : Nat) : natOfDigits (natDigits n) = n :=
  Nat.ofDigitChars_toDigits (by decide) (by decide)

/-- The digits of a number are ASCII digits. -/
theorem isDigit_of_mem_natDigits {n : Nat} {c : Char} (h : c ∈ natDigits n) : isDigit c := by
  have hdigit : c.isDigit := Nat.isDigit_of_mem_toDigits (by decide) (by decide) h
  exact hdigit

/-- A number has at least one digit. -/
theorem natDigits_ne_nil (n : Nat) : natDigits n ≠ [] := Nat.toDigits_ne_nil

/-- A number from 100 to 999 is written in three digits. -/
theorem length_natDigits_eq_three {n : Nat} (h : 100 ≤ n ∧ n ≤ 999) : (natDigits n).length = 3 := by
  have hthree : (natDigits n).length ≤ 3 := by
    rw [natDigits, Nat.length_toDigits_le_iff (by decide) (by decide)]
    omega
  have htwo : ¬ (natDigits n).length ≤ 2 := by
    rw [natDigits, Nat.length_toDigits_le_iff (by decide) (by decide)]
    omega
  exact Nat.le_antisymm hthree (Nat.lt_of_not_le htwo)

end Text

/-- A natural number as text is its digits. -/
theorem toList_intText (n : Nat) : (intText n).toList = Text.natDigits n := by
  rw [intText, if_neg (Int.not_lt.mpr (Int.natCast_nonneg n)), Int.natAbs_natCast,
    String.empty_append, String.toList_ofList]

end RouteSheet
