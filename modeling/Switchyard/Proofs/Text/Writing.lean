import Switchyard.Proofs.Text.Escapes

/-! # What is written for a text

Letters and digits stand for themselves and all other bytes are escaped, in digits of either case, so that
what is written can stand between any marks, and stands for the text it is written for and for no other.
-/
namespace Switchyard.Percent
set_option autoImplicit false

/-- What may be written for some bytes. -/
inductive Writes : List UInt8 → List Char → Prop
  | nil : Writes [] []
  | plain {b : UInt8} {bytes : List UInt8} {rest : List Char} (hPlain : isAlphanumeric b = true)
      (hRest : Writes bytes rest) : Writes (b :: bytes) (Char.ofNat b.toNat :: rest)
  | escaped {b : UInt8} {bytes : List UInt8} {high low : Char} {rest : List Char}
      (hOther : isAlphanumeric b = false) (hHigh : Worth high (b.toNat / 16))
      (hLow : Worth low (b.toNat % 16)) (hRest : Writes bytes rest) :
      Writes (b :: bytes) ('%' :: high :: low :: rest)

section Bytes
variable {bytes : List UInt8} {written : List Char}

theorem toList_loop (bytes : ByteArray) (i : Nat) (kept : List UInt8) :
    ByteArray.toList.loop bytes i kept = kept.reverse ++ bytes.data.toList.drop i := by
  fun_induction ByteArray.toList.loop bytes i kept with
  | case1 i kept h ih =>
    have hi : i < bytes.data.toList.length := by simpa using h
    rw [ih, List.drop_eq_getElem_cons hi]
    simp [ByteArray.get!, h]
  | case2 i kept h =>
    rw [List.drop_eq_nil_of_le (by simpa using Nat.le_of_not_lt h), List.append_nil]

theorem toList_toUTF8 (text : String) : text.toUTF8.toList = text.toList.flatMap String.utf8EncodeChar := by
  rw [ByteArray.toList, toList_loop, List.drop_zero, List.reverse_nil, List.nil_append,
    String.toUTF8_eq_toByteArray, ← String.utf8Encode_toList]
  exact List.toList_data_toByteArray

theorem plain_of_isAlphanumeric (b : UInt8) (h : isAlphanumeric b = true) :
    Char.ofNat b.toNat ≠ '%' ∧ String.utf8EncodeChar (Char.ofNat b.toNat) = [b] := by
  have hAll : ∀ n < 256, isAlphanumeric (UInt8.ofNat n) = true →
      Char.ofNat n ≠ '%' ∧ String.utf8EncodeChar (Char.ofNat n) = [UInt8.ofNat n] := by
    decide +kernel
  have hByte := hAll b.toNat b.toNat_lt
  rw [UInt8.ofNat_toNat] at hByte
  exact hByte h

/-- What is written for some bytes stands for them. -/
theorem Writes.stands (h : Writes bytes written) : Stands written bytes := by
  induction h with
  | nil => exact .nil
  | plain hPlain hRest ih =>
    obtain ⟨hMark, hByte⟩ := plain_of_isAlphanumeric _ hPlain
    have hStands := Stands.plain hMark ih
    rwa [hByte] at hStands
  | escaped hOther hHigh hLow hRest ih =>
    have hStands := Stands.escape hHigh hLow ih
    rwa [Nat.div_add_mod, UInt8.ofNat_toNat] at hStands

theorem worth_hexDigit : ∀ n < 16, Worth (hexDigit n) n := by decide

theorem writes_flatMap_encodeByte (bytes : List UInt8) : Writes bytes (bytes.flatMap encodeByte) := by
  induction bytes with
  | nil => exact .nil
  | cons b bytes ih =>
    have hLt := b.toNat_lt
    rw [List.flatMap_cons, encodeByte]
    split
    case isTrue hPlain => exact .plain hPlain ih
    case isFalse hOther =>
      exact .escaped (Bool.eq_false_of_not_eq_true hOther) (worth_hexDigit _ (by omega))
        (worth_hexDigit _ (by omega)) ih

/-- The characters that texts are written with. -/
def writtenChars : List Char :=
  "%0123456789ABCDEFGHIJKLMNOPQRSTUVWXYZabcdefghijklmnopqrstuvwxyz".toList

/-- Without a text in it, which is slow to take apart. -/
theorem writtenChars_eq : writtenChars =
    '%' :: (List.range' 48 10 ++ List.range' 65 26 ++ List.range' 97 26).map Char.ofNat := by
  rfl

theorem mem_writtenChars_of_isAlphanumeric (b : UInt8) (h : isAlphanumeric b = true) :
    Char.ofNat b.toNat ∈ writtenChars := by
  have hAll : ∀ n < 256, isAlphanumeric (UInt8.ofNat n) = true →
      writtenChars.contains (Char.ofNat n) = true := by
    rw [writtenChars_eq]
    decide +kernel
  have hByte := hAll b.toNat b.toNat_lt
  rw [UInt8.ofNat_toNat] at hByte
  exact List.contains_iff_mem.mp (hByte h)

theorem Worth.mem_writtenChars {c : Char} {n : Nat} (h : Worth c n) : c ∈ writtenChars := by
  have hAll : ("0123456789abcdef".toList ++ "0123456789ABCDEF".toList).all (writtenChars.contains ·) = true := by
    rw [writtenChars_eq]
    decide
  exact List.contains_iff_mem.mp (List.all_eq_true.mp hAll c
    (List.mem_append.mpr (h.imp List.mem_of_getElem? List.mem_of_getElem?)))

theorem Writes.mem_writtenChars (h : Writes bytes written) : ∀ c ∈ written, c ∈ writtenChars := by
  induction h with
  | nil => nofun
  | plain hPlain hRest ih =>
    exact List.forall_mem_cons.mpr ⟨mem_writtenChars_of_isAlphanumeric _ hPlain, ih⟩
  | escaped hOther hHigh hLow hRest ih =>
    simp only [List.forall_mem_cons]
    exact ⟨by decide, hHigh.mem_writtenChars, hLow.mem_writtenChars, ih⟩

theorem toList_encode (text : String) :
    (encode text).toList = (text.toList.flatMap String.utf8EncodeChar).flatMap encodeByte := by
  rw [encode, String.toList_ofList, toList_toUTF8]

theorem writes_encode (text : String) : Writes text.toUTF8.toList (encode text).toList := by
  rw [encode, String.toList_ofList]
  exact writes_flatMap_encodeByte _

/-- A text is written as characters that stand for its bytes. -/
theorem stands_encode (text : String) :
    Stands (encode text).toList (text.toList.flatMap String.utf8EncodeChar) :=
  toList_toUTF8 text ▸ (writes_encode text).stands

theorem mem_writtenChars_of_mem_encode {text : String} {c : Char} (h : c ∈ (encode text).toList) :
    c ∈ writtenChars :=
  (writes_encode text).mem_writtenChars c h

end Bytes
end Switchyard.Percent
