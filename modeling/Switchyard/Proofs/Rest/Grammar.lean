import Mathlib.Data.List.Forall2
import Switchyard.Proofs.Rest.NormalForm
import Switchyard.Proofs.Text.Escapes

/-! # The grammar of requests

Which texts are requests, told without a reader. One that is none breaks a first rule, and the rules come
in a fixed order: the line, its method, its target, the characters of the path, and then the segments
one by one, an escape before the encoding.
-/
namespace Switchyard.Rest
set_option autoImplicit false

/-- Characters that no path holds: the control characters and ten others. -/
def Forbidden (c : Char) : Prop :=
  c.toNat ≤ 0x1f ∨ (0x7f ≤ c.toNat ∧ c.toNat ≤ 0x9f) ∨
    c ∈ [' ', '\x22', '<', '>', '\\', '^', '\x60', '\x7b', '|', '\x7d']

instance : DecidablePred Forbidden := fun _ =>
  inferInstanceAs (Decidable (_ ∨ _))

/-- What is written stands for the bytes of a text. -/
def Spells (written : List Char) (text : String) : Prop :=
  Percent.Stands written (text.toList.flatMap String.utf8EncodeChar)

def Readable (written : List Char) : Prop := ∃ text, Spells written text

structure IsLine (text name target : String) : Prop where
  eq : text = name ++ " " ++ target
  one_space : text.toList.count ' ' = 1

structure HasMethod (text name target : String) : Prop extends IsLine text name target where
  known : name ∈ ["GET", "POST", "PUT", "DELETE"]

structure HasPath (text name target : String) : Prop extends HasMethod text name target where
  absolute : target.toList.head? = some '/'

structure HasLegalPath (text name target : String) : Prop extends HasPath text name target where
  legal : ∀ c ∈ pathPart target.toList, ¬Forbidden c

structure InGrammar (text name target : String) : Prop extends HasLegalPath text name target where
  escaped : Percent.Escaped (pathPart target.toList)
  readable : ∀ segment ∈ (pathPart target.toList).splitOn '/', Readable segment

/-- What is wrong with a segment. -/
inductive Spoils (written : List Char) : Segment.Fault → Prop
  | escape (hBroken : ¬Percent.Escaped written) : Spoils written .escape
  | encoding (hEscaped : Percent.Escaped written) (hUnreadable : ¬Readable written) :
      Spoils written .encoding

/-- The first rule that a text breaks. -/
inductive Breaks (text : String) : SyntaxError → Prop
  | shape (hCount : text.toList.count ' ' ≠ 1) : Breaks text (.shape text)
  | method {name target : String} (hLine : IsLine text name target)
      (hUnknown : name ∉ ["GET", "POST", "PUT", "DELETE"]) : Breaks text (.method name)
  | relative {name target : String} (hMethod : HasMethod text name target)
      (hRelative : target.toList.head? ≠ some '/') : Breaks text (.relative target)
  | illegalCharacter {name target : String} {before after : List Char} {c : Char}
      (hPath : HasPath text name target) (hSplit : pathPart target.toList = before ++ c :: after)
      (hBefore : ∀ b ∈ before, ¬Forbidden b) (hForbidden : Forbidden c) :
      Breaks text (.illegalCharacter target c)
  | segment {name target : String} {before after : List (List Char)} {written : List Char}
      {fault : Segment.Fault} (hPath : HasLegalPath text name target)
      (hSplit : (pathPart target.toList).splitOn '/' = before ++ written :: after)
      (hBefore : ∀ other ∈ before, Readable other) (hSpoils : Spoils written fault) :
      Breaks text (.ofFault target fault)

theorem isIllegal_iff {c : Char} : isIllegal c = true ↔ Forbidden c := by
  rw [isIllegal, isControl, Forbidden, Bool.or_eq_true, Bool.or_eq_true, Bool.and_eq_true,
    decide_eq_true_eq, decide_eq_true_eq, decide_eq_true_eq, List.contains_iff_mem, or_assoc]
  exact or_congr (by omega) (or_congr_left (by omega))

section Lines
variable {text name target : String}

theorem length_splitOn (c : Char) (s : List Char) : (s.splitOn c).length = s.count c + 1 := by
  induction s with
  | nil => rfl
  | cons x s ih =>
    rw [List.splitOn_cons_eq_if_modifyHead, List.count_cons]
    split <;> simp_all

theorem isLine_iff : IsLine text name target ↔ text.toList.splitOn ' ' = [name.toList, target.toList] := by
  constructor
  · rintro ⟨rfl, hCount⟩
    simp only [String.toList_append, List.count_append] at hCount ⊢
    have hSpace : " ".toList = [' '] := rfl
    rw [hSpace, List.count_singleton_self] at hCount
    have hName : ' ' ∉ name.toList := List.count_eq_zero.mp (by omega)
    have hTarget : ' ' ∉ target.toList := List.count_eq_zero.mp (by omega)
    rw [hSpace, List.append_assoc, List.singleton_append, List.splitOn_append_cons_self,
      List.splitOn_eq_singleton hName, List.splitOn_eq_singleton hTarget]
    rfl
  · intro hSplit
    have hText : List.intercalate [' '] (text.toList.splitOn ' ') = text.toList :=
      List.intercalate_splitOn ' '
    have hLength := length_splitOn ' ' text.toList
    rw [hSplit] at hText hLength
    refine ⟨String.ext ?_, by simpa using hLength.symm⟩
    rw [← hText]
    simp [List.intercalate]

end Lines

section Segments
variable {written path : List Char} {text : String}

theorem fromUTF8?_eq_some_iff {bytes : ByteArray} :
    String.fromUTF8? bytes = some text ↔ bytes = text.toByteArray := by
  unfold String.fromUTF8?
  constructor
  · intro h
    split at h
    · cases h
      rfl
    · cases h
  · rintro rfl
    rw [dif_pos text.isValidUTF8]
    rfl

theorem decodeText?_eq_some_iff : decodeText? written = some text ↔ Spells written text := by
  have hBytes {bytes : List UInt8} : bytes.toByteArray = text.toByteArray ↔
      bytes = text.toList.flatMap String.utf8EncodeChar := by
    rw [← String.utf8Encode_toList]
    exact List.toByteArray_inj
  rw [decodeText?, Option.bind_eq_some_iff, Spells]
  simp only [fromUTF8?_eq_some_iff, hBytes, exists_eq_right, Percent.decode_eq_some_iff]

/-- What is written stands for one text only. -/
theorem Spells.unique {other : String} (h : Spells written text) (hOther : Spells written other) :
    text = other :=
  Option.some.inj ((decodeText?_eq_some_iff.mpr h).symm.trans (decodeText?_eq_some_iff.mpr hOther))

theorem forall₂_spells_iff {pieces : List (List Char)} {texts : List String} :
    List.Forall₂ Spells pieces texts ↔ pieces.map decodeText? = texts.map some := by
  rw [← List.forall₂_eq_eq_eq, List.forall₂_map_left_iff, List.forall₂_map_right_iff]
  simp only [decodeText?_eq_some_iff]

theorem readable_iff : Readable written ↔ decodeText? written ≠ none := by
  rw [Option.ne_none_iff_exists']
  exact exists_congr fun _ => decodeText?_eq_some_iff.symm

instance : DecidablePred Readable := fun _ => decidable_of_iff _ readable_iff.symm

theorem Readable.escaped (h : Readable written) : Percent.Escaped written :=
  let ⟨_, hSpells⟩ := h
  Percent.escaped_iff.mpr ⟨_, hSpells⟩

theorem readable_nil : Readable [] := ⟨"", .nil⟩

theorem Readable.not_spoils (h : Readable written) (fault : Segment.Fault) : ¬Spoils written fault := by
  rintro (hBroken | ⟨-, hUnreadable⟩)
  · exact hBroken h.escaped
  · exact hUnreadable h

theorem Segment.read_eq_error_iff {h : written ≠ [] ∧ ∀ c ∈ written, isSegmentChar c = true}
    {fault : Segment.Fault} : Segment.read written h = .error fault ↔ Spoils written fault := by
  unfold Segment.read
  split
  case h_1 hNone =>
    have hBroken : ¬Percent.Escaped written := by simp [Percent.escaped_iff_decode, hNone]
    constructor
    · rintro ⟨⟩
      exact .escape hBroken
    · rintro (_ | ⟨hWhole, -⟩)
      · rfl
      · exact absurd hWhole hBroken
  case h_2 bytes hSome =>
    have hWhole : Percent.Escaped written := by simp [Percent.escaped_iff_decode, hSome]
    split
    case h_1 hNone =>
      have hUnreadable : ¬Readable written := by simp [readable_iff, hNone]
      constructor
      · rintro ⟨⟩
        exact .encoding hWhole hUnreadable
      · rintro (hBroken | _)
        · exact absurd hWhole hBroken
        · rfl
    case h_2 text hText =>
      constructor
      · rintro ⟨⟩
      · rintro (hBroken | ⟨-, hUnreadable⟩)
        · exact absurd hWhole hBroken
        · exact absurd (readable_iff.mpr (by simp [hText])) hUnreadable

theorem Segment.exists_read_eq_ok_iff {h : written ≠ [] ∧ ∀ c ∈ written, isSegmentChar c = true} :
    (∃ s, Segment.read written h = .ok s) ↔ Readable written := by
  constructor
  · rintro ⟨s, hRead⟩
    rw [← Segment.read_eq_ok_iff.mp hRead]
    exact ⟨s.text, decodeText?_eq_some_iff.mp s.decodes⟩
  · intro hReadable
    cases hRead : Segment.read written h with
    | ok s => exact ⟨s, rfl⟩
    | error fault => exact absurd (Segment.read_eq_error_iff.mp hRead) (hReadable.not_spoils fault)

/-- What no slash can be a part of holds of a path if it holds of its pieces. -/
theorem forall_splitOn_iff {P : List Char → Prop}
    (hSlash : ∀ before after, P (before ++ '/' :: after) ↔ P before ∧ P after) (path : List Char) :
    P path ↔ ∀ piece ∈ path.splitOn '/', P piece := by
  induction hLength : path.length using Nat.strong_induction_on generalizing path with
  | _ n ih =>
    by_cases hMem : '/' ∈ path
    · obtain ⟨before, after, rfl, hBefore⟩ := List.eq_append_cons_of_mem hMem
      rw [hSlash, List.splitOn_append_cons_self, List.splitOn_eq_singleton hBefore,
        ih after.length (by simp at hLength; omega) after rfl]
      simp
    · simp [List.splitOn_eq_singleton hMem]

end Segments

theorem mapM_eq_error_iff {ε α β γ : Type} {f : α → Except ε β} {source : α → γ} {Good : γ → Prop}
    {Bad : γ → ε → Prop} (hGood : ∀ input, (∃ output, f input = .ok output) ↔ Good (source input))
    (hBad : ∀ input cause, f input = .error cause ↔ Bad (source input) cause) {inputs : List α}
    {cause : ε} : inputs.mapM f = .error cause ↔
      ∃ before x after, inputs.map source = before ++ x :: after ∧ (∀ other ∈ before, Good other) ∧
        Bad x cause := by
  induction inputs with
  | nil => simp [pure, Except.pure]
  | cons input inputs ih =>
    rw [List.mapM_cons, List.map_cons]
    cases hFirst : f input with
    | error fault =>
      have hFault := (hBad input fault).mp hFirst
      constructor
      · rintro ⟨⟩
        exact ⟨[], _, _, rfl, nofun, hFault⟩
      · rintro ⟨before, x, after, hSplit, hBefore, hx⟩
        cases before with
        | nil =>
          obtain ⟨rfl, -⟩ := List.cons.inj hSplit
          cases hFirst.symm.trans ((hBad input cause).mpr hx)
          rfl
        | cons other before =>
          obtain ⟨rfl, -⟩ := List.cons.inj hSplit
          obtain ⟨output, hOutput⟩ := (hGood input).mpr (hBefore _ List.mem_cons_self)
          cases hFirst.symm.trans hOutput
    | ok output =>
      have hHead := (hGood input).mp ⟨output, hFirst⟩
      have hTail : (do return output :: (← inputs.mapM f)) = Except.error cause ↔
          inputs.mapM f = .error cause := by
        cases inputs.mapM f <;> simp [bind, Except.bind, pure, Except.pure]
      refine hTail.trans (ih.trans ?_)
      constructor
      · rintro ⟨before, x, after, hSplit, hBefore, hx⟩
        exact ⟨source input :: before, x, after, by rw [hSplit, List.cons_append],
          List.forall_mem_cons.mpr ⟨hHead, hBefore⟩, hx⟩
      · rintro ⟨before, x, after, hSplit, hBefore, hx⟩
        cases before with
        | nil =>
          obtain ⟨rfl, -⟩ := List.cons.inj hSplit
          cases hFirst.symm.trans ((hBad input cause).mpr hx)
        | cons other before =>
          exact ⟨before, x, after, (List.cons.inj hSplit).2,
            (List.forall_mem_cons.mp hBefore).2, hx⟩

theorem mapError_eq_error_iff {ε ε' α : Type} {result : Except ε α} {f : ε → ε'} {cause : ε'} :
    result.mapError f = .error cause ↔ ∃ fault, result = .error fault ∧ cause = f fault := by
  cases result <;> simp [Except.mapError, eq_comm]

/-- Empty pieces are readable, so the first piece that is spoilt is the first written segment that is. -/
theorem exists_spoils_filter {pieces : List (List Char)} {cause : SyntaxError} {uri : String} :
    (∃ before written after, pieces.filter (· ≠ []) = before ++ written :: after ∧
      (∀ other ∈ before, Readable other) ∧ ∃ fault, Spoils written fault ∧ cause = .ofFault uri fault) ↔
    ∃ before written after, pieces = before ++ written :: after ∧
      (∀ other ∈ before, Readable other) ∧
        ∃ fault, Spoils written fault ∧ cause = .ofFault uri fault := by
  constructor
  · rintro ⟨before, written, after, hSplit, hBefore, hSpoils⟩
    obtain ⟨first, second, rfl, rfl, hSecond⟩ := List.filter_eq_append_iff.mp hSplit
    obtain ⟨empty, rest, rfl, hEmpty, -, -⟩ := List.filter_eq_cons_iff.mp hSecond
    refine ⟨first ++ empty, written, rest, by rw [List.append_assoc], fun other hOther => ?_, hSpoils⟩
    by_cases hNil : other = []
    · exact hNil ▸ readable_nil
    · rcases List.mem_append.mp hOther with hFirst | hMem
      · exact hBefore other (List.mem_filter.mpr ⟨hFirst, by simpa using hNil⟩)
      · exact absurd (by simpa using hNil) (hEmpty other hMem)
  · rintro ⟨before, written, after, rfl, hBefore, fault, hSpoils, hCause⟩
    have hSome : written ≠ [] := fun hNil => readable_nil.not_spoils fault (hNil ▸ hSpoils)
    exact ⟨before.filter (· ≠ []), written, after.filter (· ≠ []), by simp [hSome],
      fun other hOther => hBefore other (List.mem_filter.mp hOther).1, fault, hSpoils, hCause⟩

namespace Request
variable {method : Method} {uri : String} {cause : SyntaxError}

theorem readSegments_eq_error_iff (hLegal : (pathPart uri.toList).find? isIllegal = none) :
    readSegments uri hLegal = .error cause ↔
      ∃ before written after, (pathPart uri.toList).splitOn '/' = before ++ written :: after ∧
        (∀ other ∈ before, Readable other) ∧
          ∃ fault, Spoils written fault ∧ cause = .ofFault uri fault := by
  let read (input : { written // written ∈ writtenSegments (pathPart uri.toList) }) :=
    (Segment.read input.1 (isSegment_of_mem hLegal input.2)).mapError (SyntaxError.ofFault uri)
  have hGood input : (∃ segment, read input = .ok segment) ↔ Readable input.1 :=
    (exists_congr fun _ => mapError_eq_ok_iff).trans Segment.exists_read_eq_ok_iff
  have hBad input cause : read input = .error cause ↔
      ∃ fault, Spoils input.1 fault ∧ cause = .ofFault uri fault :=
    mapError_eq_error_iff.trans (exists_congr fun _ => and_congr_left' Segment.read_eq_error_iff)
  have hAll := @mapM_eq_error_iff _ _ _ _ read Subtype.val Readable
    (fun written cause => ∃ fault, Spoils written fault ∧ cause = .ofFault uri fault) hGood hBad
    (writtenSegments (pathPart uri.toList)).attach cause
  rw [List.attach_map_subtype_val] at hAll
  exact hAll.trans exists_spoils_filter

/-- A target is refused for the first thing that is wrong with it. -/
theorem ofTarget_eq_error_iff : ofTarget method uri = .error cause ↔
    uri.toList.head? ≠ some '/' ∧ cause = .relative uri ∨
    uri.toList.head? = some '/' ∧ (∃ c, (pathPart uri.toList).find? isIllegal = some c ∧
      cause = .illegalCharacter uri c) ∨
    uri.toList.head? = some '/' ∧ (pathPart uri.toList).find? isIllegal = none ∧
      ∃ before written after, (pathPart uri.toList).splitOn '/' = before ++ written :: after ∧
        (∀ other ∈ before, Readable other) ∧
          ∃ fault, Spoils written fault ∧ cause = .ofFault uri fault := by
  unfold ofTarget
  by_cases hSlash : uri.toList.head? = some '/'
  · rw [if_pos hSlash]
    split
    · rename_i c hIllegal
      simp [hSlash, hIllegal, eq_comm]
    · rename_i hLegal
      rw [← readSegments_eq_error_iff hLegal]
      cases readSegments uri hLegal <;> simp [hSlash, hLegal, Except.map]
  · simp [hSlash, eq_comm]

theorem parse_of_isLine {text name target : String} (h : IsLine text name target) :
    parse text = ofParts name target := by
  rw [parse, isLine_iff.mp h]
  simp only [String.ofList_toList]

theorem parse_of_count {text : String} (h : text.toList.count ' ' ≠ 1) :
    parse text = .error (.shape text) := by
  unfold parse
  split
  · rename_i hSplit
    have hLength := length_splitOn ' ' text.toList
    rw [hSplit] at hLength
    exact absurd (Nat.succ.inj hLength).symm h
  · rfl

theorem ofParts_of_known (method : Method) (target : String) :
    ofParts method.name target = ofTarget method target := by
  rw [ofParts, (Method.ofName?_eq_some_iff _ _).mpr rfl]

theorem ofParts_of_unknown {name : String} (h : ∀ method : Method, name ≠ method.name)
    (target : String) : ofParts name target = .error (.method name) := by
  have hNone : Method.ofName? name = none := Option.eq_none_iff_forall_ne_some.mpr fun method hSome =>
    h method ((Method.ofName?_eq_some_iff _ _).mp hSome)
  rw [ofParts, hNone]

end Request

theorem exists_isLine {text : String} (h : text.toList.count ' ' = 1) :
    ∃ name target, IsLine text name target := by
  have hLength := length_splitOn ' ' text.toList
  rw [h] at hLength
  obtain ⟨name, target, hSplit⟩ := List.length_eq_two.mp hLength
  exact ⟨String.ofList name, String.ofList target, isLine_iff.mpr (by simpa using hSplit)⟩

theorem mem_names_iff {name : String} :
    name ∈ ["GET", "POST", "PUT", "DELETE"] ↔ ∃ method : Method, name = method.name := by
  constructor
  · intro h
    simp only [List.mem_cons, List.not_mem_nil, or_false] at h
    rcases h with rfl | rfl | rfl | rfl
    · exact ⟨.get, rfl⟩
    · exact ⟨.post, rfl⟩
    · exact ⟨.put, rfl⟩
    · exact ⟨.delete, rfl⟩
  · rintro ⟨method, rfl⟩
    cases method <;> decide

section Paths
variable {path : List Char}

theorem find?_isIllegal_eq_none_iff : path.find? isIllegal = none ↔ ∀ c ∈ path, ¬Forbidden c := by
  simp only [List.find?_eq_none, isIllegal_iff]

theorem find?_isIllegal_eq_some_iff {c : Char} : path.find? isIllegal = some c ↔
    ∃ before after, path = before ++ c :: after ∧ (∀ b ∈ before, ¬Forbidden b) ∧ Forbidden c := by
  simp only [List.find?_eq_some_iff_append, isIllegal_iff, Bool.not_eq_true', ← Bool.not_eq_true]
  constructor
  · rintro ⟨hForbidden, before, after, hSplit, hBefore⟩
    exact ⟨before, after, hSplit, hBefore, hForbidden⟩
  · rintro ⟨before, after, hSplit, hBefore, hForbidden⟩
    exact ⟨hForbidden, before, after, hSplit, hBefore⟩

/-- Empty pieces can be read, and no escape reaches from one piece into the next. -/
theorem readable_splitOn_iff : (∀ written ∈ writtenSegments path, decodeText? written ≠ none) ↔
    Percent.Escaped path ∧ ∀ segment ∈ path.splitOn '/', Readable segment := by
  rw [forall_splitOn_iff Percent.escaped_append_slash]
  constructor
  · intro h
    have hReadable : ∀ segment ∈ path.splitOn '/', Readable segment := fun segment hSegment => by
      by_cases hNil : segment = []
      · exact hNil ▸ readable_nil
      · exact readable_iff.mpr (h segment (List.mem_filter.mpr ⟨hSegment, by simpa using hNil⟩))
    exact ⟨fun segment hSegment => (hReadable segment hSegment).escaped, hReadable⟩
  · rintro ⟨-, hReadable⟩ written hWritten
    exact readable_iff.mp (hReadable written (List.mem_filter.mp hWritten).1)

end Paths

namespace Request
variable {text name target : String}

theorem exists_parse_iff : (∃ r, parse text = .ok r) ↔ ∃ name target, InGrammar text name target := by
  constructor
  · rintro ⟨r, hAccepted⟩
    by_cases hCount : text.toList.count ' ' = 1
    case neg =>
      rw [parse_of_count hCount] at hAccepted
      cases hAccepted
    obtain ⟨name, target, hLine⟩ := exists_isLine hCount
    rw [parse_of_isLine hLine] at hAccepted
    by_cases hKnown : ∃ method : Method, name = method.name
    case neg =>
      rw [ofParts_of_unknown (not_exists.mp hKnown)] at hAccepted
      cases hAccepted
    obtain ⟨method, rfl⟩ := hKnown
    rw [ofParts_of_known] at hAccepted
    obtain ⟨hAbsolute, hLegal, hText⟩ := (exists_ofTarget_iff method target).mp ⟨r, hAccepted⟩
    obtain ⟨hEscaped, hReadable⟩ := readable_splitOn_iff.mp hText
    exact ⟨method.name, target, {
      toIsLine := hLine
      known := mem_names_iff.mpr ⟨method, rfl⟩
      absolute := hAbsolute
      legal := find?_isIllegal_eq_none_iff.mp hLegal
      escaped := hEscaped
      readable := hReadable }⟩
  · rintro ⟨name, target, h⟩
    obtain ⟨method, rfl⟩ := mem_names_iff.mp h.known
    rw [parse_of_isLine h.toIsLine, ofParts_of_known]
    exact (exists_ofTarget_iff method target).mpr ⟨h.absolute,
      find?_isIllegal_eq_none_iff.mpr h.legal, readable_splitOn_iff.mpr ⟨h.escaped, h.readable⟩⟩

theorem breaks_of_ofTarget {method : Method} {cause : SyntaxError}
    (hLine : IsLine text method.name target) (h : ofTarget method target = .error cause) :
    Breaks text cause := by
  have hMethod : HasMethod text method.name target := ⟨hLine, mem_names_iff.mpr ⟨method, rfl⟩⟩
  rcases ofTarget_eq_error_iff.mp h with ⟨hRelative, rfl⟩ | ⟨hAbsolute, c, hIllegal, rfl⟩ |
    ⟨hAbsolute, hLegal, before, written, after, hSplit, hBefore, fault, hSpoils, rfl⟩
  · exact .relative hMethod hRelative
  · obtain ⟨before, after, hSplit, hBefore, hForbidden⟩ := find?_isIllegal_eq_some_iff.mp hIllegal
    exact .illegalCharacter ⟨hMethod, hAbsolute⟩ hSplit hBefore hForbidden
  · exact .segment ⟨⟨hMethod, hAbsolute⟩, find?_isIllegal_eq_none_iff.mp hLegal⟩ hSplit hBefore hSpoils

theorem parse_of_hasMethod (h : HasMethod text name target) :
    ∃ method : Method, name = method.name ∧ parse text = ofTarget method target := by
  obtain ⟨method, rfl⟩ := mem_names_iff.mp h.known
  exact ⟨method, rfl, (parse_of_isLine h.toIsLine).trans (ofParts_of_known method target)⟩

/-- A text is refused for the first rule that it breaks. -/
theorem parse_eq_error_iff {cause : SyntaxError} : parse text = .error cause ↔ Breaks text cause := by
  constructor
  · intro h
    by_cases hCount : text.toList.count ' ' = 1
    case neg =>
      rw [parse_of_count hCount] at h
      cases h
      exact .shape hCount
    obtain ⟨name, target, hLine⟩ := exists_isLine hCount
    rw [parse_of_isLine hLine] at h
    by_cases hKnown : ∃ method : Method, name = method.name
    case neg =>
      rw [ofParts_of_unknown (not_exists.mp hKnown)] at h
      cases h
      exact .method hLine (mem_names_iff.not.mpr hKnown)
    obtain ⟨method, rfl⟩ := hKnown
    rw [ofParts_of_known] at h
    exact breaks_of_ofTarget hLine h
  · intro h
    cases h with
    | shape hCount => exact parse_of_count hCount
    | method hLine hUnknown =>
      rw [parse_of_isLine hLine]
      exact ofParts_of_unknown (not_exists.mp (mem_names_iff.not.mp hUnknown)) _
    | relative hMethod hRelative =>
      obtain ⟨method, -, hParse⟩ := parse_of_hasMethod hMethod
      exact hParse.trans (ofTarget_eq_error_iff.mpr (.inl ⟨hRelative, rfl⟩))
    | illegalCharacter hPath hSplit hBefore hForbidden =>
      obtain ⟨method, -, hParse⟩ := parse_of_hasMethod hPath.toHasMethod
      have hIllegal := find?_isIllegal_eq_some_iff.mpr ⟨_, _, hSplit, hBefore, hForbidden⟩
      exact hParse.trans (ofTarget_eq_error_iff.mpr (.inr (.inl ⟨hPath.absolute, _, hIllegal, rfl⟩)))
    | segment hPath hSplit hBefore hSpoils =>
      obtain ⟨method, -, hParse⟩ := parse_of_hasMethod hPath.toHasMethod
      have hLegal := find?_isIllegal_eq_none_iff.mpr hPath.legal
      exact hParse.trans (ofTarget_eq_error_iff.mpr
        (.inr (.inr ⟨hPath.absolute, hLegal, _, _, _, hSplit, hBefore, _, hSpoils, rfl⟩)))

/-- The segments of a request are those of its text, decoded. -/
theorem spells_of_parse {r : Request} (h : parse text = .ok r) (hLine : IsLine text name target) :
    r.method.name = name ∧ r.pieces = writtenSegments (pathPart target.toList) ∧
      List.Forall₂ Spells r.pieces (r.segments.map (·.text)) := by
  rw [parse_of_isLine hLine] at h
  by_cases hKnown : ∃ method : Method, name = method.name
  case neg =>
    rw [ofParts_of_unknown (not_exists.mp hKnown)] at h
    cases h
  obtain ⟨method, rfl⟩ := hKnown
  rw [ofParts_of_known] at h
  obtain ⟨-, -, rfl, hPieces⟩ := ofTarget_eq_ok_iff.mp h
  refine ⟨rfl, hPieces, ?_⟩
  rw [forall₂_spells_iff, pieces, List.map_map, List.map_map]
  exact List.map_congr_left fun segment _ => segment.decodes

theorem rawNodes_eq {r : Request} (h : r.pieces ≠ []) : r.rawNodes = r.pieces.map String.ofList := by
  have hRoot : r.isRoot = false := by simpa [pieces, isRoot] using h
  simp [rawNodes, pieces, hRoot]

theorem nodes_eq {r : Request} (h : r.pieces ≠ []) : r.nodes = r.segments.map (·.text) := by
  have hRoot : r.isRoot = false := by simpa [pieces, isRoot] using h
  simp [nodes, hRoot]

theorem nodes_of_root {r : Request} (h : r.pieces = []) : r.nodes = [""] ∧ r.rawNodes = [""] := by
  have hRoot : r.isRoot = true := by simpa [pieces, isRoot] using h
  simp [nodes, rawNodes, hRoot]

end Request

/-- A text is a request exactly if it follows the grammar, and its nodes are then its segments as they
are written and as they decode, but that a path without segments has one empty node. Any other text is
refused for the first rule that it breaks. -/
theorem requests_follow_the_grammar (text : String) :
    ((∃ r, Request.parse text = .ok r) ↔ ∃ name target, InGrammar text name target) ∧
    (∀ r name target, Request.parse text = .ok r → IsLine text name target →
      let written := ((pathPart target.toList).splitOn '/').filter (· ≠ [])
      r.method.name = name ∧
      (written ≠ [] → List.Forall₂ Spells written r.nodes ∧ r.rawNodes = written.map String.ofList) ∧
      (written = [] → r.nodes = [""] ∧ r.rawNodes = [""])) ∧
    ∀ cause, Request.parse text = .error cause ↔ Breaks text cause := by
  refine ⟨Request.exists_parse_iff, fun r name target hParse hLine => ?_,
    fun cause => Request.parse_eq_error_iff⟩
  obtain ⟨hName, hPieces, hSpells⟩ := Request.spells_of_parse hParse hLine
  rw [writtenSegments] at hPieces
  rw [← hPieces]
  refine ⟨hName, fun hSome => ?_, Request.nodes_of_root⟩
  rw [Request.nodes_eq hSome]
  exact ⟨hSpells, Request.rawNodes_eq hSome⟩

theorem root_has_a_node_but_no_segment : ∃ r, Request.parse "GET /" = .ok r ∧ IsLine "GET /" "GET" "/" ∧
    let written := ((pathPart "/".toList).splitOn '/').filter (· ≠ [])
    ¬(List.Forall₂ Spells written r.nodes ∧ r.rawNodes = written.map String.ofList) := by
  have hParse : Request.parse "GET /" = .ok ⟨.get, []⟩ := by cbv
  refine ⟨⟨.get, []⟩, hParse, ⟨rfl, by decide⟩, ?_⟩
  dsimp only
  rintro ⟨-, hRaw⟩
  revert hRaw
  decide

theorem requests_follow_the_grammar_escaped :
    (∃ r, Request.parse "PUT /a%2Fb//%C3%BC?%" = .ok r ∧ r.rawNodes = ["a%2Fb", "%C3%BC"] ∧
      r.nodes = ["a/b", "ü"]) ∧
    Request.parse "PUT /%FF/%2" = .error (.encoding "/%FF/%2") := by
  constructor
  · obtain ⟨hAccepted, hNodes, -⟩ := requests_follow_the_grammar "PUT /a%2Fb//%C3%BC?%"
    have hLine : IsLine "PUT /a%2Fb//%C3%BC?%" "PUT" "/a%2Fb//%C3%BC?%" := ⟨rfl, by decide⟩
    obtain ⟨r, hParse⟩ := hAccepted.mpr ⟨_, _, {
      toIsLine := hLine
      known := by decide
      absolute := by decide
      legal := find?_isIllegal_eq_none_iff.mp (by decide)
      escaped := by decide
      readable := by decide }⟩
    obtain ⟨-, hSome, -⟩ := hNodes r _ _ hParse hLine
    obtain ⟨hSpells, hRaw⟩ := hSome (by decide)
    refine ⟨r, hParse, hRaw, List.map_injective_iff.mpr (Option.some_injective _) ?_⟩
    rw [← forall₂_spells_iff.mp hSpells]
    decide
  · obtain ⟨-, -, hRefused⟩ := requests_follow_the_grammar "PUT /%FF/%2"
    have hPath : HasLegalPath "PUT /%FF/%2" "PUT" "/%FF/%2" := {
      eq := rfl
      one_space := by decide
      known := by decide
      absolute := by decide
      legal := find?_isIllegal_eq_none_iff.mp (by decide) }
    have hSplit : (pathPart "/%FF/%2".toList).splitOn '/' =
      [[]] ++ "%FF".toList :: ["%2".toList] := by decide
    have hSpoils : Spoils "%FF".toList .encoding := .encoding (by decide) (by decide)
    exact (hRefused _).mpr (Breaks.segment hPath hSplit (by decide) hSpoils)

end Switchyard.Rest
