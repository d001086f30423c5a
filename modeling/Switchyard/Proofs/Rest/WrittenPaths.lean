import Switchyard.Proofs.Rest.Grammar
import Switchyard.Proofs.Text.Writing

/-! # Written paths

Any texts can be written as the segments of a path, each of them in several ways, and are read back from it
whatever they hold: a written text has nothing in it that divides or ends a path. So different texts make
different requests.
-/
namespace Switchyard.Rest
set_option autoImplicit false

/-- One of the ways to write a text as a segment. -/
def WrittenAs (text written : String) : Prop := Percent.Writes text.toUTF8.toList written.toList

/-- The path whose segments are written so. -/
def pathOf (written : List String) : String := "/" ++ "/".intercalate written

section Segments
variable {text written : String} {c : Char}

theorem isSegmentChar_of_mem_writtenChars (h : c ∈ Percent.writtenChars) : isSegmentChar c = true := by
  have hAll : Percent.writtenChars.all isSegmentChar = true := by
    rw [Percent.writtenChars_eq]
    decide
  exact List.all_eq_true.mp hAll c h

theorem writtenAs_iff : WrittenAs text written ↔
    Percent.Writes (text.toList.flatMap String.utf8EncodeChar) written.toList := by
  rw [WrittenAs, Percent.toList_toUTF8]

theorem writtenAs_encode (text : String) : WrittenAs text (Percent.encode text) := Percent.writes_encode text

namespace WrittenAs

theorem spells (h : WrittenAs text written) : Spells written.toList text := (writtenAs_iff.mp h).stands

theorem isSegmentChar (h : WrittenAs text written) (hMem : c ∈ written.toList) : isSegmentChar c = true :=
  isSegmentChar_of_mem_writtenChars (h.mem_writtenChars c hMem)

theorem toList_ne_nil (h : WrittenAs text written) (hSome : text ≠ "") : written.toList ≠ [] := by
  intro hNil
  have hNothing : Spells [] text := hNil ▸ h.spells
  exact hSome (hNothing.unique .nil)

/-- The segment that is read back. -/
def segment (h : WrittenAs text written) (hSome : text ≠ "") : Segment where
  raw := written
  text
  raw_ne_nil := h.toList_ne_nil hSome
  raw_chars _ := h.isSegmentChar
  decodes := decodeText?_eq_some_iff.mpr h.spells

end WrittenAs

theorem exists_segments {texts written : List String} (hWritten : List.Forall₂ WrittenAs texts written)
    (hSome : ∀ text ∈ texts, text ≠ "") :
    ∃ segments : List Segment, segments.map (·.raw) = written ∧ segments.map (·.text) = texts := by
  induction hWritten with
  | nil => exact ⟨[], rfl, rfl⟩
  | cons hFirst hRest ih =>
    obtain ⟨hText, hTexts⟩ := List.forall_mem_cons.mp hSome
    obtain ⟨segments, hRaw, hDecoded⟩ := ih hTexts
    exact ⟨hFirst.segment hText :: segments, congrArg _ hRaw, congrArg _ hDecoded⟩

end Segments

theorem intercalate_append_slash {pieces : List (List Char)} (hSome : pieces ≠ []) :
    List.intercalate ['/'] pieces ++ ['/'] = closedPieces pieces := by
  induction pieces with
  | nil => exact absurd rfl hSome
  | cons first rest ih =>
    cases rest with
    | nil => simp
    | cons second rest =>
      rw [List.intercalate_cons_cons, closedPieces_cons, ← ih (List.cons_ne_nil second rest)]
      simp

namespace Request

/-- The path of a request has a slash at its end, but is otherwise that of its segments. -/
theorem pathOf_append_slash {r : Request} (hSome : r.segments ≠ []) :
    pathOf (r.segments.map (·.raw)) ++ "/" = r.rawPath := by
  have hPieces : r.pieces ≠ [] := fun hNil => hSome (List.map_eq_nil_iff.mp hNil)
  have hPath : (pathOf (r.segments.map (·.raw))).toList = '/' :: List.intercalate ['/'] r.pieces := by
    simp [pathOf, pieces, Function.comp_def]
  refine String.ext ?_
  rw [String.toList_append, hPath, toList_rawPath, ← intercalate_append_slash hPieces]
  rfl

theorem ofTarget_pathOf (r : Request) :
    ofTarget r.method (pathOf (r.segments.map (·.raw))) = .ok r := by
  by_cases hRoot : r.segments = []
  case pos =>
    have hPath : pathOf (r.segments.map (·.raw)) = r.rawPath := by
      rw [rawPath, hRoot]
      rfl
    rw [hPath]
    exact ofTarget_rawPath r
  case neg =>
    have hSome : pathOf (r.segments.map (·.raw)) ≠ "" := by simp [pathOf]
    rw [← ofTarget_append_slash_iff hSome, pathOf_append_slash hRoot]
    exact ofTarget_rawPath r

theorem nodes_eq_ite (r : Request) :
    r.nodes = if r.segments.map (·.text) = [] then [""] else r.segments.map (·.text) := by
  simp [nodes, isRoot]

theorem rawNodes_eq_ite (r : Request) :
    r.rawNodes = if r.segments.map (·.text) = [] then [""] else r.segments.map (·.raw) := by
  simp [rawNodes, isRoot]

end Request

/-- Texts that are not empty can be written as the segments of a path in any way that escapes what is
neither a letter nor a digit, and are the nodes of the request that is read from it. No other texts make
that request, however they are written. -/
theorem texts_are_read_back_from_paths (method : Method) {texts written : List String}
    (hSome : ∀ text ∈ texts, text ≠ "") (hWritten : List.Forall₂ WrittenAs texts written) :
    ∃ r, Request.ofTarget method (pathOf written) = .ok r ∧ r.method = method ∧
      r.nodes = (if texts = [] then [""] else texts) ∧
      r.rawNodes = (if texts = [] then [""] else written) ∧ r.depth = texts.length ∧
      ∀ (method' : Method) (others written' : List String), (∀ text ∈ others, text ≠ "") →
        List.Forall₂ WrittenAs others written' →
          ∃ other, Request.ofTarget method' (pathOf written') = .ok other ∧
            (texts ≠ others → r ≠ other ∧ r.key ≠ other.key) := by
  obtain ⟨segments, rfl, rfl⟩ := exists_segments hWritten hSome
  let r : Request := ⟨method, segments⟩
  refine ⟨r, r.ofTarget_pathOf, rfl, r.nodes_eq_ite, r.rawNodes_eq_ite, (List.length_map _).symm,
    fun method' others written' hOthers hWritten' => ?_⟩
  obtain ⟨segments', rfl, rfl⟩ := exists_segments hWritten' hOthers
  let other : Request := ⟨method', segments'⟩
  refine ⟨other, other.ofTarget_pathOf, fun hTexts => ?_⟩
  have hNe : r ≠ other := fun hEq => hTexts (congrArg (fun r : Request => r.segments.map (·.text)) hEq)
  exact ⟨hNe, fun hKey => hNe (Request.key_injective hKey)⟩

namespace Sample

theorem writtenAs_slash : WrittenAs "a/b" "a%2fb" :=
  writtenAs_iff.mpr (.plain (by decide) (.escaped (by decide) (by decide) (by decide) (.plain (by decide) .nil)))

/-- A character of two bytes, written in digits of both cases, and a mark. -/
theorem writtenAs_mark : WrittenAs "ü?" "%c3%BC%3F" :=
  writtenAs_iff.mpr (.escaped (by decide) (by decide) (by decide) (.escaped (by decide) (by decide) (by decide)
    (.escaped (by decide) (by decide) (by decide) .nil)))

end Sample

theorem texts_are_read_back_from_paths_marked : ∃ r other : Request,
    Request.ofTarget .put "/a%2fb/%c3%BC%3F" = .ok r ∧ r.nodes = ["a/b", "ü?"] ∧
      r.rawNodes = ["a%2fb", "%c3%BC%3F"] ∧ r.depth = 2 ∧
      Request.ofTarget .put "/a/b" = .ok other ∧ r ≠ other := by
  have hSome : ∀ text ∈ ["a/b", "ü?"], text ≠ "" := by decide
  obtain ⟨r, hRead, -, hNodes, hRaw, hDepth, hDistinct⟩ := texts_are_read_back_from_paths .put hSome
    (.cons Sample.writtenAs_slash (.cons Sample.writtenAs_mark .nil))
  obtain ⟨other, hOther, hNe⟩ := hDistinct .put ["a", "b"] _ (by decide)
    (.cons (writtenAs_encode "a") (.cons (writtenAs_encode "b") .nil))
  have hTarget : pathOf [Percent.encode "a", Percent.encode "b"] = "/a/b" := by decide +kernel
  exact ⟨r, other, hRead, hNodes, hRaw, hDepth, hTarget ▸ hOther, (hNe (by decide)).1⟩

/-- The path of no texts has one raw node all the same. -/
theorem root_has_a_raw_node_for_no_text :
    pathOf [] = "/" ∧ (∃ r, Request.ofTarget .get "/" = .ok r ∧ r.rawNodes = [""]) ∧
    ¬∀ (method : Method) (texts written : List String), (∀ text ∈ texts, text ≠ "") →
      List.Forall₂ WrittenAs texts written → ∃ r, Request.ofTarget method (pathOf written) = .ok r ∧
        r.nodes = (if texts = [] then [""] else texts) ∧ r.rawNodes = written ∧ r.depth = texts.length := by
  have hRoot : Request.ofTarget .get "/" = .ok ⟨.get, []⟩ := Request.ofTarget_rawPath ⟨.get, []⟩
  refine ⟨rfl, ⟨_, hRoot, rfl⟩, fun hClaim => ?_⟩
  obtain ⟨r, hRead, -, hRaw, -⟩ := hClaim .get [] [] nofun .nil
  obtain rfl := Except.ok.inj (hRoot.symm.trans hRead)
  cases hRaw

end Switchyard.Rest
