import Mathlib.Algebra.Group.Nat.Defs
import Mathlib.Data.List.Basic
import Switchyard.Config.Toml.Reader

/-! # Writing numbers

A document in which each line gives a number in decimal digits to a key is read back as it was written: every
line adds its number under its key, and no number that fits is taken for something else.
-/
namespace Switchyard.Config.Toml
set_option autoImplicit false

/-- A key that needs no quotes. -/
def IsBareKey (key : String) : Prop := key ≠ "" ∧ ∀ c ∈ key.toList, isBare c = true

instance : DecidablePred IsBareKey := fun key =>
  decidable_of_iff (key ≠ "" ∧ key.toList.all isBare = true) (and_congr_right fun _ => List.all_eq_true)

/-- A number and the key it is for, which may be dotted. -/
structure Entry where
  keys : List String
  value : Nat
  keys_ne_nil : keys ≠ [] := by decide
  length_lt : keys.length < maxDepth := by decide
  bare : ∀ key ∈ keys, IsBareKey key := by decide
  value_lt : value < 2 ^ 63

/-- Keys with dots between them. -/
def writtenKeys : List String → List Char
  | [] => []
  | [key] => key.toList
  | key :: next :: rest => key.toList ++ '.' :: writtenKeys (next :: rest)

namespace Entry

def line (e : Entry) : List Char :=
  writtenKeys e.keys ++ ' ' :: '=' :: ' ' :: (Nat.toDigits 10 e.value ++ ['\n'])

/-- A document with one entry more. -/
def addTo? (doc : Document) (e : Entry) : Option Document := doc.insert? e.keys (.integer e.value)

end Entry

def written (entries : List Entry) : String := String.ofList (entries.flatMap Entry.line)

/-- The digits of a number, with no zero in front of others. -/
structure IsNumeral (first : Char) (digits : List Char) : Prop where
  isDigit_first : isDigit first = true
  isDigit_digits : ∀ c ∈ digits, isDigit c = true
  alone : first = '0' → digits = []

/-- A mark that does not belong to a class of characters is none of them. -/
theorem ne_of_class {p : Char → Bool} {c mark : Char} (h : p c = true) (hMark : p mark = false) : c ≠ mark := by
  rintro rfl
  exact absurd h (hMark ▸ Bool.false_ne_true)

theorem cons_ne_of_class {p : Char → Bool} {c mark : Char} (h : p c = true) (hMark : p mark = false)
    (tail more : List Char) : c :: tail ≠ mark :: more :=
  fun hEq => ne_of_class h hMark (List.cons.inj hEq).1

section Digits
variable {c : Char} {n : Nat} {digits rest : List Char}

theorem isDigit_of_mem_toDigits (h : c ∈ Nat.toDigits 10 n) : isDigit c = true :=
  Nat.isDigit_of_mem_toDigits (by decide) (by decide) h

theorem head_toDigits_ne_zero (h : 0 < n) : (Nat.toDigits 10 n).head? ≠ some '0' := by
  induction n using Nat.strongRecOn with
  | ind n ih =>
    by_cases hLt : n < 10
    · have hDigit : ∀ n < 10, 0 < n → [Nat.digitChar n].head? ≠ some '0' := by decide
      rw [Nat.toDigits_of_lt_base hLt]
      exact hDigit n hLt h
    · rw [Nat.toDigits_of_base_le (by decide) (by omega), List.head?_append_of_ne_nil _ Nat.toDigits_ne_nil]
      exact ih (n / 10) (by omega) (by omega)

theorem exists_toDigits_eq (n : Nat) :
    ∃ first digits, Nat.toDigits 10 n = first :: digits ∧ IsNumeral first digits := by
  have hDigits : ∀ c ∈ Nat.toDigits 10 n, isDigit c = true := fun _ => isDigit_of_mem_toDigits
  cases hEq : Nat.toDigits 10 n with
  | nil => exact absurd hEq Nat.toDigits_ne_nil
  | cons first digits =>
    rw [hEq, List.forall_mem_cons] at hDigits
    refine ⟨first, digits, rfl, hDigits.1, hDigits.2, fun hZero => ?_⟩
    rcases Nat.eq_zero_or_pos n with rfl | hPos
    · exact (List.cons.inj hEq).2.symm
    · refine absurd ?_ (head_toDigits_ne_zero hPos)
      rw [hEq, List.head?_cons, hZero]

theorem valueOf_toDigits (n : Nat) : valueOf 10 (Nat.toDigits 10 n) = n := by
  have hFold : valueOf 10 (Nat.toDigits 10 n) = Nat.ofDigitChars 10 (Nat.toDigits 10 n) 0 := by
    refine List.foldl_ext _ _ _ fun value c hMem => ?_
    have hDigit : '0' ≤ c ∧ c ≤ '9' := by simpa [isDigit] using isDigit_of_mem_toDigits hMem
    simp [Percent.hexValue?, hDigit, Nat.mul_comm]
  rw [hFold, Nat.ofDigitChars_toDigits (by decide) (by decide)]

theorem moreDigits_of_digits (h : ∀ c ∈ digits, isDigit c = true) :
    moreDigits isDigit (digits ++ '\n' :: rest) = (digits, '\n' :: rest) := by
  induction digits with
  | nil => rfl
  | cons d digits ih =>
    obtain ⟨hDigit, hDigits⟩ := List.forall_mem_cons.mp h
    rw [List.cons_append, moreDigits, if_pos hDigit, ih hDigits]
    exact fun _ _ hMark => absurd hMark (ne_of_class hDigit (by decide))

/-- Whatever is read of a few digits, a digit or the end of the line follows. -/
theorem mark?_of_readField? {count low high value : Nat} {left : List Char} {mark : Char}
    (hDigits : ∀ c ∈ digits, isDigit c = true) (hMark : isDigit mark = false) (hEnd : mark ≠ '\n')
    (h : readField? count low high (digits ++ '\n' :: rest) = some (value, left)) : mark? mark left = none := by
  simp only [readField?] at h
  split at h
  · rename_i hField
    cases h
    have hLe : count ≤ digits.length := by
      by_contra hLt
      obtain ⟨more, hMore⟩ := Nat.exists_eq_add_one.mpr (Nat.sub_pos_of_lt (Nat.lt_of_not_le hLt))
      have hAll := List.all_eq_true.mp hField.2.1 '\n' (by simp [List.take_append, hMore])
      exact absurd hAll (by decide)
    rw [List.drop_append_of_le_length hLe]
    cases hDrop : digits.drop count with
    | nil => exact if_neg hEnd.symm
    | cons d left =>
      have hMem : d ∈ digits := List.mem_of_mem_drop (hDrop ▸ List.mem_cons_self)
      exact if_neg (ne_of_class (hDigits d hMem) hMark)
  · cases h

end Digits

namespace IsNumeral
variable {first : Char} {digits : List Char} (h : IsNumeral first digits) (rest : List Char)
include h

theorem forall_mem : ∀ c ∈ first :: digits, isDigit c = true :=
  List.forall_mem_cons.mpr ⟨h.isDigit_first, h.isDigit_digits⟩

theorem readSign_eq : readSign (first :: (digits ++ '\n' :: rest)) = (false, first :: (digits ++ '\n' :: rest)) := by
  unfold readSign
  split
  · exact absurd ‹_› (cons_ne_of_class h.isDigit_first (by decide) _ _)
  · exact absurd ‹_› (cons_ne_of_class h.isDigit_first (by decide) _ _)
  · rfl

theorem wholeDigits?_eq :
    wholeDigits? (first :: (digits ++ '\n' :: rest)) = some (first :: digits, '\n' :: rest) := by
  by_cases hZero : first = '0'
  · rw [h.alone hZero, hZero]
    rfl
  · rw [wholeDigits?, digits?, if_pos h.isDigit_first, moreDigits_of_digits h.isDigit_digits]
    exact fun _ hEq => hZero (List.cons.inj hEq).1

theorem readDate?_eq_none : readDate? (first :: (digits ++ '\n' :: rest)) = none := by
  have hDay : skipDay? (first :: (digits ++ '\n' :: rest)) = none := by
    simp only [skipDay?, Option.bind_eq_bind, Option.bind_eq_none_iff]
    rintro ⟨year, left⟩ hYear month hMonth
    rw [mark?_of_readField? h.forall_mem (by decide) (by decide) hYear] at hMonth
    cases hMonth
  have hTime : skipTime? (first :: (digits ++ '\n' :: rest)) = none := by
    simp only [skipTime?, Option.bind_eq_bind, Option.bind_eq_none_iff]
    rintro ⟨hour, left⟩ hHour minute hMinute
    rw [mark?_of_readField? h.forall_mem (by decide) (by decide) hHour] at hMinute
    cases hMinute
  rw [readDate?, hDay, hTime]
  rfl

theorem readFloat?_eq_none : readFloat? (first :: (digits ++ '\n' :: rest)) = none := by
  simp only [readFloat?, h.readSign_eq, h.wholeDigits?_eq]
  rfl

/-- No radix is written in front. -/
theorem readInteger?_eq : readInteger? (first :: (digits ++ '\n' :: rest)) =
    (signed? false (valueOf 10 (first :: digits))).map (·, '\n' :: rest) := by
  have hMark : ∀ mark more, mark ≠ '\n' → first :: (digits ++ '\n' :: rest) ≠ '0' :: mark :: more := by
    intro mark more hMark hEq
    obtain ⟨hZero, hMore⟩ := List.cons.inj hEq
    rw [h.alone hZero] at hMore
    exact hMark (List.cons.inj hMore).1.symm
  unfold readInteger?
  split
  · exact absurd ‹_› (hMark _ _ (by decide))
  · exact absurd ‹_› (hMark _ _ (by decide))
  · exact absurd ‹_› (hMark _ _ (by decide))
  · simp only [h.readSign_eq, h.wholeDigits?_eq, Option.bind_eq_bind, Option.bind_some]
    cases signed? false (valueOf 10 (first :: digits)) <;> rfl

end IsNumeral

theorem readValue?_toDigits {n : Nat} (hLt : n < 2 ^ 63) (fuel depth : Nat) (rest : List Char) :
    readValue? (fuel + 1) depth (Nat.toDigits 10 n ++ '\n' :: rest) = some (.integer n, '\n' :: rest) := by
  have hSigned : signed? false n = some (.integer n) := if_pos hLt
  have hValue := valueOf_toDigits n
  obtain ⟨first, digits, hEq, hNumeral⟩ := exists_toDigits_eq n
  rw [hEq] at hValue ⊢
  rw [List.cons_append, readValue?]
  · rw [hNumeral.readDate?_eq_none, hNumeral.readFloat?_eq_none, hNumeral.readInteger?_eq, hValue, hSigned]
    rfl
  -- What opens a string, an array, a table or a word is no digit.
  all_goals exact fun _ => cons_ne_of_class hNumeral.isDigit_first (by decide) _ _

section Lines
variable {c : Char} {key : String} {keys : List String} {rest : List Char}

theorem exists_toList_eq (hKey : IsBareKey key) :
    ∃ first more, key.toList = first :: more ∧ isBare first = true := by
  cases hEq : key.toList with
  | nil => exact absurd (String.toList_eq_nil_iff.mp hEq) hKey.1
  | cons first more => exact ⟨first, more, rfl, hKey.2 first (hEq ▸ List.mem_cons_self)⟩

theorem isBare_of_isDigit (h : isDigit c = true) : isBare c = true := by
  have hDigit : c.isDigit = true := h
  simp [isBare, Char.isAlphanum, hDigit]

theorem isBlank_of_isBare (h : isBare c = true) : isBlank c = false := by
  have hSpace : c ≠ ' ' := ne_of_class h (by decide)
  have hTab : c ≠ '\t' := ne_of_class h (by decide)
  simp [isBlank, hSpace, hTab]

theorem skipBlanks_of_isBare (h : isBare c = true) (rest : List Char) : skipBlanks (c :: rest) = c :: rest :=
  List.dropWhile_cons_of_neg (isBlank_of_isBare h ▸ Bool.false_ne_true)

theorem readSimpleKey?_of_bare (hKey : IsBareKey key) {mark : Char}
    (hMark : isBare mark = false) :
    readSimpleKey? (skipBlanks (key.toList ++ mark :: rest)) = some (key, mark :: rest) := by
  have hTake : (key.toList ++ mark :: rest).takeWhile isBare = key.toList := by
    rw [List.takeWhile_append_of_pos hKey.2, List.takeWhile_cons_of_neg (by simp [hMark]), List.append_nil]
  have hDrop : (key.toList ++ mark :: rest).dropWhile isBare = mark :: rest := by
    rw [List.dropWhile_append_of_pos hKey.2, List.dropWhile_cons_of_neg (by simp [hMark])]
  obtain ⟨first, more, hEq, hFirst⟩ := exists_toList_eq hKey
  have hQuotes : ¬(first = '\x22' ∨ first = '\x27') :=
    not_or.mpr ⟨ne_of_class hFirst (by decide), ne_of_class hFirst (by decide)⟩
  rw [hEq, List.cons_append] at hTake hDrop ⊢
  rw [skipBlanks_of_isBare hFirst, readSimpleKey?, if_neg hQuotes, hTake, hDrop]
  change some (String.ofList (first :: more), mark :: rest) = _
  rw [← hEq, String.ofList_toList]

theorem readKeys?_written (hKeys : keys ≠ []) (hBare : ∀ key ∈ keys, IsBareKey key)
    {fuel : Nat} (hFuel : keys.length ≤ fuel) :
    readKeys? fuel (writtenKeys keys ++ ' ' :: '=' :: rest) = some (keys, '=' :: rest) := by
  induction keys generalizing fuel with
  | nil => exact absurd rfl hKeys
  | cons key keys ih =>
    obtain ⟨hKey, hRest⟩ := List.forall_mem_cons.mp hBare
    obtain ⟨fuel, rfl⟩ := Nat.exists_eq_succ_of_ne_zero (Nat.ne_zero_of_lt hFuel)
    cases keys with
    | nil =>
      rw [readKeys?, writtenKeys, readSimpleKey?_of_bare hKey (by decide)]
      rfl
    | cons next keys =>
      rw [readKeys?, writtenKeys, List.append_assoc, List.cons_append, readSimpleKey?_of_bare hKey (by decide)]
      change (readKeys? fuel (writtenKeys (next :: keys) ++ ' ' :: '=' :: rest)).bind
        (fun read => some (key :: read.1, read.2)) = _
      rw [ih (List.cons_ne_nil _ _) hRest (Nat.le_of_succ_le_succ hFuel)]
      rfl

namespace Entry
variable (e : Entry)

/-- No line is blank or opens a table. -/
theorem exists_line_eq : ∃ first more, e.line = first :: more ∧ isBare first = true := by
  have hBare := e.bare
  cases hKeys : e.keys with
  | nil => exact absurd hKeys e.keys_ne_nil
  | cons key keys =>
    obtain ⟨first, more, hEq, hFirst⟩ := exists_toList_eq (hBare key (hKeys ▸ List.mem_cons_self))
    cases keys <;> simp [line, hKeys, writtenKeys, hEq, hFirst]

theorem readExpression?_line (doc : Document) (rest : List Char) :
    readExpression? doc (e.line ++ rest) = (e.addTo? doc).map (·, rest) := by
  obtain ⟨first, more, hEq, hFirst⟩ := e.exists_line_eq
  have hTable : ∀ more, e.line ++ rest ≠ '[' :: more := by
    rw [hEq]
    exact cons_ne_of_class hFirst (by decide) _
  have hText : e.line ++ rest =
      writtenKeys e.keys ++ ' ' :: '=' :: ' ' :: (Nat.toDigits 10 e.value ++ '\n' :: rest) := by simp [line]
  have hKey : readKey? (e.line ++ rest) = some (e.keys, '=' :: ' ' :: (Nat.toDigits 10 e.value ++ '\n' :: rest)) :=
    hText ▸ readKeys?_written e.keys_ne_nil e.bare (Nat.le_pred_of_lt e.length_lt)
  have hBlank : skipBlanks (' ' :: (Nat.toDigits 10 e.value ++ '\n' :: rest)) =
      Nat.toDigits 10 e.value ++ '\n' :: rest := by
    obtain ⟨d, digits, hDigits, hNumeral⟩ := exists_toDigits_eq e.value
    rw [hDigits]
    exact skipBlanks_of_isBare (isBare_of_isDigit hNumeral.isDigit_first) _
  unfold readExpression?
  split
  · exact absurd ‹_› (hTable _)
  · exact absurd ‹_› (hTable _)
  · simp only [hKey, Option.bind_eq_bind, Option.bind_some]
    change (readValue? _ _ (skipBlanks (' ' :: (Nat.toDigits 10 e.value ++ '\n' :: rest)))).bind _ = _
    rw [hBlank, readValue?_toDigits e.value_lt]
    change (e.addTo? doc).bind (fun doc => some (doc, rest)) = _
    exact Option.map_eq_bind.symm

theorem skipLines_line (rest : List Char) : skipLines false (e.line ++ rest) = e.line ++ rest := by
  obtain ⟨first, more, hEq, hFirst⟩ := e.exists_line_eq
  have hBlank := isBlank_of_isBare hFirst
  have hComment : first ≠ '#' := ne_of_class hFirst (by decide)
  rw [hEq, List.cons_append, skipLines]
  · simp [hBlank, hComment]
  · exact ne_of_class hFirst (by decide)
  · exact fun _ h => absurd h (ne_of_class hFirst (by decide))

end Entry
end Lines

theorem readExpressions?_lines (entries : List Entry) {fuel : Nat} (doc : Document)
    (hFuel : (entries.flatMap Entry.line).length < fuel) :
    readExpressions? fuel doc (entries.flatMap Entry.line) = entries.foldlM Entry.addTo? doc := by
  induction entries generalizing fuel doc with
  | nil =>
    obtain ⟨fuel, rfl⟩ := Nat.exists_eq_succ_of_ne_zero (Nat.ne_zero_of_lt hFuel)
    rfl
  | cons e entries ih =>
    obtain ⟨fuel, rfl⟩ := Nat.exists_eq_succ_of_ne_zero (Nat.ne_zero_of_lt hFuel)
    obtain ⟨first, more, hEq, -⟩ := e.exists_line_eq
    rw [List.flatMap_cons] at hFuel ⊢
    have hRest : (entries.flatMap Entry.line).length < fuel := by
      simp only [hEq, List.length_append, List.length_cons] at hFuel
      omega
    have hStep : readExpressions? (fuel + 1) doc (e.line ++ entries.flatMap Entry.line) =
        (readExpression? doc (e.line ++ entries.flatMap Entry.line)).bind
          fun read => readExpressions? fuel read.1 read.2 := by
      rw [readExpressions?, e.skipLines_line, hEq]
      rfl
    rw [hStep, e.readExpression?_line, List.foldlM_cons]
    cases e.addTo? doc with
    | none => rfl
    | some grown => exact ih grown hRest

/-- What is written is read back: all entries are added, each to what those before it have made. -/
theorem parse?_written (entries : List Entry) :
    parse? (written entries) = (entries.foldlM Entry.addTo? Document.empty).map (·.members) := by
  have hMark : dropMark (entries.flatMap Entry.line) = entries.flatMap Entry.line := by
    cases entries with
    | nil => rfl
    | cons e entries =>
      obtain ⟨first, more, hEq, hFirst⟩ := e.exists_line_eq
      rw [List.flatMap_cons, hEq, List.cons_append, dropMark]
      exact fun _ => cons_ne_of_class hFirst (by decide) _ _
  rw [parse?, written, String.toList_ofList, hMark, readExpressions?_lines _ _ (Nat.lt_succ_self _)]

end Switchyard.Config.Toml
