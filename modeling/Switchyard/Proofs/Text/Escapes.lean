import Mathlib.Tactic.IntervalCases
import Mathlib.Tactic.SplitIfs
import Switchyard.Text.Percent

/-! # What escapes stand for

Two hexadecimal digits behind a percent sign stand for a byte, and every other character for the bytes
of its own encoding. A text stands for some bytes exactly if each percent sign in it has its two digits,
and then for those alone that it is decoded to.
-/
namespace Switchyard.Percent
set_option autoImplicit false

def Worth (c : Char) (n : Nat) : Prop :=
  "0123456789abcdef".toList[n]? = some c ∨ "0123456789ABCDEF".toList[n]? = some c

instance (c : Char) (n : Nat) : Decidable (Worth c n) :=
  inferInstanceAs (Decidable (_ ∨ _))

def IsHex (c : Char) : Prop := ∃ n, Worth c n

inductive Stands : List Char → List UInt8 → Prop
  | nil : Stands [] []
  | escape {high low : Char} {a b : Nat} {rest : List Char} {bytes : List UInt8}
      (hHigh : Worth high a) (hLow : Worth low b) (hRest : Stands rest bytes) :
      Stands ('%' :: high :: low :: rest) (UInt8.ofNat (16 * a + b) :: bytes)
  | plain {c : Char} {rest : List Char} {bytes : List UInt8} (hPlain : c ≠ '%')
      (hRest : Stands rest bytes) : Stands (c :: rest) (String.utf8EncodeChar c ++ bytes)

/-- Each percent sign has its two digits. -/
def Escaped (text : List Char) : Prop :=
  ∀ before after, text = before ++ '%' :: after →
    ∃ high low rest, after = high :: low :: rest ∧ IsHex high ∧ IsHex low

theorem hexValue?_eq_some_iff {c : Char} {n : Nat} : hexValue? c = some n ↔ Worth c n := by
  constructor
  · intro h
    have hSelf := Char.ofNat_toNat c
    unfold hexValue? at h
    simp only [Char.le_def, UInt32.le_iff_toNat_le] at h
    split_ifs at h with hDigit hSmall hCapital
    all_goals cases h
    · obtain ⟨hLow, hHigh⟩ : 48 ≤ c.toNat ∧ c.toNat ≤ 57 := hDigit
      interval_cases c.toNat <;> rw [← hSelf] <;> decide
    · obtain ⟨hLow, hHigh⟩ : 97 ≤ c.toNat ∧ c.toNat ≤ 102 := hSmall
      interval_cases c.toNat <;> rw [← hSelf] <;> decide
    · obtain ⟨hLow, hHigh⟩ : 65 ≤ c.toNat ∧ c.toNat ≤ 70 := hCapital
      interval_cases c.toNat <;> rw [← hSelf] <;> decide
  · rintro (h | h)
    all_goals
      have hn : n < 16 := (List.getElem?_eq_some_iff.mp h).1
      interval_cases n <;> cases h <;> rfl

theorem isHex_iff {c : Char} : IsHex c ↔ hexValue? c ≠ none := by
  rw [Option.ne_none_iff_exists']
  exact exists_congr fun _ => hexValue?_eq_some_iff.symm

instance : DecidablePred IsHex := fun _ => decidable_of_iff _ isHex_iff.symm

theorem decode_eq_some_iff {text : List Char} {bytes : List UInt8} :
    decode text = some bytes ↔ Stands text bytes := by
  constructor
  · intro h
    induction text using decode.induct generalizing bytes with
    | case1 =>
      cases h
      exact .nil
    | case2 high low rest ih =>
      simp only [decode, Option.bind_eq_bind, Option.bind_eq_some_iff] at h
      obtain ⟨a, hHigh, b, hLow, others, hRest, hBytes⟩ := h
      cases hBytes
      exact .escape (hexValue?_eq_some_iff.mp hHigh) (hexValue?_eq_some_iff.mp hLow) (ih hRest)
    | case3 rest hShort => simp [decode] at h
    | case4 c rest hShort hPlain ih =>
      rw [decode.eq_3 c rest hShort, if_neg hPlain, Option.map_eq_some_iff] at h
      obtain ⟨others, hRest, rfl⟩ := h
      exact .plain hPlain (ih hRest)
  · intro h
    induction h with
    | nil => rfl
    | escape hHigh hLow hRest ih =>
      simp [decode, hexValue?_eq_some_iff.mpr hHigh, hexValue?_eq_some_iff.mpr hLow, ih]
    | plain hPlain hRest ih => simp [decode, hPlain, ih]

/-- Only the empty text stands for no bytes. -/
theorem Stands.eq_nil {text : List Char} (h : Stands text []) : text = [] := by
  generalize hBytes : ([] : List UInt8) = bytes at h
  cases h with
  | nil => rfl
  | escape hHigh hLow hRest => cases hBytes
  | @plain c rest others hPlain hRest =>
    have hSize := c.utf8Size_pos
    rw [← String.length_utf8EncodeChar, (List.append_eq_nil_iff.mp hBytes.symm).1] at hSize
    cases hSize

section Escaped
variable {c : Char} {text rest : List Char}

theorem escaped_nil : Escaped [] := by
  intro before after h
  simp at h

theorem escaped_cons (hPlain : c ≠ '%') : Escaped (c :: rest) ↔ Escaped rest := by
  constructor
  · intro h before after hRest
    exact h (c :: before) after (by rw [hRest, List.cons_append])
  · intro h before after hText
    cases before with
    | nil => exact absurd (List.cons.inj hText).1 hPlain
    | cons first before => exact h before after (List.cons.inj hText).2

theorem escaped_percent : Escaped ('%' :: rest) ↔
    ∃ high low others, rest = high :: low :: others ∧ IsHex high ∧ IsHex low ∧ Escaped others := by
  constructor
  · intro h
    obtain ⟨high, low, others, rfl, hHigh, hLow⟩ := h [] rest rfl
    refine ⟨high, low, others, rfl, hHigh, hLow, fun before after hOthers => ?_⟩
    exact h ('%' :: high :: low :: before) after (by simp [hOthers])
  · rintro ⟨high, low, others, rfl, hHigh, hLow, h⟩
    have hNoHex : ¬IsHex '%' := by decide
    have hBehind : Escaped (high :: low :: others) := by
      rwa [escaped_cons fun hEq => hNoHex (hEq ▸ hHigh), escaped_cons fun hEq => hNoHex (hEq ▸ hLow)]
    intro before after hText
    cases before with
    | nil =>
      cases hText
      exact ⟨high, low, others, rfl, hHigh, hLow⟩
    | cons first before => exact hBehind before after (List.cons.inj hText).2

/-- No escape reaches over a slash. -/
theorem escaped_append_slash (before after : List Char) :
    Escaped (before ++ '/' :: after) ↔ Escaped before ∧ Escaped after := by
  have hNoHex : ¬IsHex '/' := by decide
  constructor
  · intro h
    refine ⟨fun first second hSplit => ?_, fun first second hSplit => ?_⟩
    · obtain ⟨high, low, rest, hRest, hHigh, hLow⟩ := h first (second ++ '/' :: after) (by simp [hSplit])
      match second with
      | [] =>
        cases hRest
        exact absurd hHigh hNoHex
      | [digit] =>
        cases hRest
        exact absurd hLow hNoHex
      | high :: low :: others =>
        cases hRest
        exact ⟨high, low, others, rfl, hHigh, hLow⟩
    · exact h (before ++ '/' :: first) second (by simp [hSplit])
  · rintro ⟨hBefore, hAfter⟩ first second hSplit
    rcases List.append_eq_append_iff.mp hSplit with ⟨more, rfl, hMore⟩ | ⟨more, rfl, hMore⟩
    · cases more with
      | nil => cases hMore
      | cons c more => exact hAfter more second (List.cons.inj hMore).2
    · cases more with
      | nil => cases hMore
      | cons c more =>
        obtain ⟨rfl, rfl⟩ := List.cons.inj hMore
        obtain ⟨high, low, rest, rfl, hHigh, hLow⟩ := hBefore first more rfl
        exact ⟨high, low, rest ++ '/' :: after, rfl, hHigh, hLow⟩

theorem escaped_iff : Escaped text ↔ ∃ bytes, Stands text bytes := by
  constructor
  · intro h
    induction text using decode.induct with
    | case1 => exact ⟨[], .nil⟩
    | case2 high low rest ih =>
      obtain ⟨_, _, _, hRest, ⟨a, hHigh⟩, ⟨b, hLow⟩, hOthers⟩ := escaped_percent.mp h
      cases hRest
      obtain ⟨bytes, hBytes⟩ := ih hOthers
      exact ⟨_, .escape hHigh hLow hBytes⟩
    | case3 rest hShort =>
      obtain ⟨high, low, others, rfl, -⟩ := escaped_percent.mp h
      exact (hShort high low others rfl rfl).elim
    | case4 c rest hShort hPlain ih =>
      obtain ⟨bytes, hBytes⟩ := ih ((escaped_cons hPlain).mp h)
      exact ⟨_, .plain hPlain hBytes⟩
  · rintro ⟨bytes, h⟩
    induction h with
    | nil => exact escaped_nil
    | escape hHigh hLow hRest ih =>
      exact escaped_percent.mpr ⟨_, _, _, rfl, ⟨_, hHigh⟩, ⟨_, hLow⟩, ih⟩
    | plain hPlain hRest ih => exact (escaped_cons hPlain).mpr ih

theorem escaped_iff_decode : Escaped text ↔ decode text ≠ none := by
  rw [escaped_iff, Option.ne_none_iff_exists']
  exact exists_congr fun _ => decode_eq_some_iff.symm

instance : DecidablePred Escaped := fun _ => decidable_of_iff _ escaped_iff_decode.symm

end Escaped
end Switchyard.Percent
