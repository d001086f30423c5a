import Switchyard.Proofs.Text.Writing
import Switchyard.Text.Utf8

/-! # Texts are read back from their bytes

The first byte of a character tells how many others are owed, and in what range the next one lies. A
character's own bytes keep what its first byte promises, so that none of them is replaced.
-/
namespace Switchyard.Utf8
set_option autoImplicit false

variable {n v bits low high : Nat} {rest : Bytes}

theorem toNat_ofNat (hn : n < 0x100) : (UInt8.ofNat n).toNat = n := UInt8.toNat_ofNat_of_lt' hn

theorem decodeFrom_ascii (hn : n < 0x80) :
    decodeFrom none (UInt8.ofNat n :: rest) = Char.ofNat n :: decodeFrom none rest := by
  simp [decodeFrom, toNat_ofNat (hn.trans (by decide)), hn]

theorem decodeFrom_lead {owed : Owed} (hn : 0x80 ≤ n ∧ n < 0x100) (hLead : lead? n = some owed) :
    decodeFrom none (UInt8.ofNat n :: rest) = decodeFrom (some owed) rest := by
  simp [decodeFrom, toNat_ofNat hn.2, Nat.not_lt.mpr hn.1, hLead]

theorem decodeFrom_next {count : Nat} (hn : low ≤ n ∧ n ≤ high) (hByte : n < 0x100) :
    decodeFrom (some ⟨count + 2, low, high, bits⟩) (UInt8.ofNat n :: rest) =
      decodeFrom (some ⟨count + 1, 0x80, 0xBF, bits * 64 + (n - 0x80)⟩) rest := by
  simp [decodeFrom, toNat_ofNat hByte, hn]

theorem decodeFrom_last (hn : low ≤ n ∧ n ≤ high) (hByte : n < 0x100) :
    decodeFrom (some ⟨1, low, high, bits⟩) (UInt8.ofNat n :: rest) =
      Char.ofNat (bits * 64 + (n - 0x80)) :: decodeFrom none rest := by
  simp [decodeFrom, toNat_ofNat hByte, hn]

theorem lead?_two (hv : 0x80 ≤ v ∧ v ≤ 0x7FF) :
    lead? (v / 64 % 32 + 0xC0) = some ⟨1, 0x80, 0xBF, v / 64⟩ := by
  rw [lead?, if_pos (by omega), Nat.add_sub_cancel]
  rw [Nat.mod_eq_of_lt (by omega)]

/-- A second byte that keeps clear of overlong forms and of surrogates. -/
theorem exists_lead?_three (hv : 0x800 ≤ v ∧ v ≤ 0xFFFF) (hValid : v < 0xD800 ∨ 0xDFFF < v) :
    ∃ low high, lead? (v / 4096 % 16 + 0xE0) = some ⟨2, low, high, v / 4096⟩ ∧
      low ≤ v / 64 % 64 + 0x80 ∧ v / 64 % 64 + 0x80 ≤ high := by
  have hHigh : v / 4096 % 16 = v / 4096 := Nat.mod_eq_of_lt (by omega)
  rw [hHigh, lead?, if_neg (by omega)]
  by_cases hFirst : v / 4096 = 0
  · exact ⟨0xA0, 0xBF, by simp [hFirst], by omega, by omega⟩
  · rw [if_neg (by omega)]
    by_cases hSurrogates : v / 4096 = 0xD
    · exact ⟨0x80, 0x9F, by simp [hSurrogates], by omega, by omega⟩
    · rw [if_neg (by omega), if_pos (by omega), Nat.add_sub_cancel]
      exact ⟨0x80, 0xBF, rfl, by omega, by omega⟩

theorem exists_lead?_four (hv : 0x10000 ≤ v ∧ v < 0x110000) :
    ∃ low high, lead? (v / 262144 % 8 + 0xF0) = some ⟨3, low, high, v / 262144⟩ ∧
      low ≤ v / 4096 % 64 + 0x80 ∧ v / 4096 % 64 + 0x80 ≤ high := by
  have hHigh : v / 262144 % 8 = v / 262144 := Nat.mod_eq_of_lt (by omega)
  rw [hHigh, lead?, if_neg (by omega), if_neg (by omega), if_neg (by omega), if_neg (by omega)]
  by_cases hFirst : v / 262144 = 0
  · exact ⟨0x90, 0xBF, by simp [hFirst], by omega, by omega⟩
  · rw [if_neg (by omega)]
    by_cases hLast : v / 262144 = 4
    · exact ⟨0x80, 0x8F, by simp [hLast], by omega, by omega⟩
    · rw [if_neg (by omega), if_pos (by omega), Nat.add_sub_cancel]
      exact ⟨0x80, 0xBF, rfl, by omega, by omega⟩

/-- The bytes of a character are read as that character, whatever follows. -/
theorem decodeFrom_utf8EncodeChar (c : Char) (rest : Bytes) :
    decodeFrom none (String.utf8EncodeChar c ++ rest) = c :: decodeFrom none rest := by
  have hSelf : Char.ofNat c.val.toNat = c := c.ofNat_toNat
  have hValid : c.val.toNat < 0xD800 ∨ 0xDFFF < c.val.toNat ∧ c.val.toNat < 0x110000 := c.valid
  rw [String.utf8EncodeChar]
  generalize c.val.toNat = v at hSelf hValid ⊢
  split
  case isTrue hOne => rw [List.singleton_append, decodeFrom_ascii (by omega), hSelf]
  case isFalse hOne =>
    split
    case isTrue hTwo =>
      have hBits : v / 64 * 64 + (v % 64 + 0x80 - 0x80) = v := by omega
      rw [List.cons_append, List.singleton_append, decodeFrom_lead (by omega) (lead?_two (by omega)),
        decodeFrom_last (by omega) (by omega), hBits, hSelf]
    case isFalse hTwo =>
      split
      case isTrue hThree =>
        obtain ⟨low, high, hLead, hRange⟩ := exists_lead?_three (v := v) (by omega) (by omega)
        have hBits : (v / 4096 * 64 + (v / 64 % 64 + 0x80 - 0x80)) * 64 + (v % 64 + 0x80 - 0x80) = v := by
          omega
        rw [List.cons_append, List.cons_append, List.singleton_append, decodeFrom_lead (by omega) hLead,
          decodeFrom_next hRange (by omega), decodeFrom_last (by omega) (by omega), hBits, hSelf]
      case isFalse hThree =>
        obtain ⟨low, high, hLead, hRange⟩ := exists_lead?_four (v := v) (by omega)
        have hBits : ((v / 262144 * 64 + (v / 4096 % 64 + 0x80 - 0x80)) * 64 +
            (v / 64 % 64 + 0x80 - 0x80)) * 64 + (v % 64 + 0x80 - 0x80) = v := by
          omega
        rw [List.cons_append, List.cons_append, List.cons_append, List.singleton_append,
          decodeFrom_lead (by omega) hLead, decodeFrom_next hRange (by omega),
          decodeFrom_next (by omega) (by omega), decodeFrom_last (by omega) (by omega), hBits, hSelf]

theorem decodeFrom_flatMap (characters : List Char) :
    decodeFrom none (characters.flatMap String.utf8EncodeChar) = characters := by
  induction characters with
  | nil => rfl
  | cons c characters ih => rw [List.flatMap_cons, decodeFrom_utf8EncodeChar, ih]

/-- Nothing of a text is replaced when its bytes are read. -/
theorem decodeLossy_encode (text : String) : decodeLossy (encode text) = text := by
  rw [decodeLossy, encode, Percent.toList_toUTF8, decodeFrom_flatMap, String.ofList_toList]

theorem encode_ne_nil {text : String} (h : text ≠ "") : encode text ≠ [] := by
  intro hEmpty
  have hBack := decodeLossy_encode text
  rw [hEmpty] at hBack
  exact h hBack.symm

end Switchyard.Utf8
