import Mathlib.Data.List.Infix
import Mathlib.Data.String.Basic
import Switchyard.Rest.Bindings

/-! # Routing keys

The keys cut out of a request's own key are the keys of its ancestors, longest first, and no two
requests have the same key. So looking a key up is looking a request up.
-/
namespace Switchyard.Rest
set_option autoImplicit false

/-- What stands behind the first slash of a path in normal form. -/
def closedPieces (pieces : List (List Char)) : List Char := pieces.flatMap (· ++ ['/'])

@[simp] theorem closedPieces_nil : closedPieces [] = [] := rfl

@[simp] theorem closedPieces_cons (piece : List Char) (pieces : List (List Char)) :
    closedPieces (piece :: pieces) = piece ++ '/' :: closedPieces pieces := by
  simp [closedPieces]

theorem toList_joinPath (nodes : List String) :
    (joinPath nodes).toList = '/' :: closedPieces (nodes.map (·.toList)) := by
  rw [joinPath, String.toList_append, String.join_eq, String.toList_ofList, closedPieces,
    List.map_map, List.flatMap_map, List.flatMap_def]
  simp [Function.comp_def]

theorem slashCuts_append {piece : List Char} (hPiece : '/' ∉ piece) (rest : List Char) :
    slashCuts (piece ++ rest) = (slashCuts rest).map (piece ++ ·) := by
  induction piece with
  | nil => simp
  | cons c piece ih =>
    rw [List.mem_cons, not_or] at hPiece
    rw [List.cons_append, slashCuts, if_neg (Ne.symm hPiece.1), ih hPiece.2]
    simp

theorem slashCuts_closedPieces {pieces : List (List Char)} (hPieces : ∀ piece ∈ pieces, '/' ∉ piece) :
    slashCuts ('/' :: closedPieces pieces) = pieces.inits.map ('/' :: closedPieces ·) := by
  induction pieces with
  | nil => simp [slashCuts]
  | cons piece pieces ih =>
    have hPiece := hPieces piece List.mem_cons_self
    have hRest := ih fun other hOther => hPieces other (List.mem_cons_of_mem _ hOther)
    rw [slashCuts, closedPieces_cons, slashCuts_append hPiece, hRest, List.inits_cons]
    simp

theorem eq_and_eq_of_append_cons_eq {c : Char} {a b rest rest' : List Char} (ha : c ∉ a) (hb : c ∉ b)
    (h : a ++ c :: rest = b ++ c :: rest') : a = b ∧ rest = rest' := by
  rcases List.append_eq_append_iff.mp h with ⟨more, rfl, hMore⟩ | ⟨more, rfl, hMore⟩
  · cases more with
    | nil => simpa using hMore
    | cons x more =>
      cases (List.cons.inj hMore).1
      exact absurd (List.mem_append_right _ List.mem_cons_self) hb
  · cases more with
    | nil => simpa using hMore.symm
    | cons x more =>
      cases (List.cons.inj hMore).1
      exact absurd (List.mem_append_right _ List.mem_cons_self) ha

theorem closedPieces_injective {pieces others : List (List Char)}
    (hPieces : ∀ piece ∈ pieces, '/' ∉ piece) (hOthers : ∀ piece ∈ others, '/' ∉ piece)
    (h : closedPieces pieces = closedPieces others) : pieces = others := by
  induction pieces generalizing others with
  | nil =>
    cases others with
    | nil => rfl
    | cons other others => simp at h
  | cons piece pieces ih =>
    cases others with
    | nil => simp at h
    | cons other others =>
      rw [closedPieces_cons, closedPieces_cons] at h
      obtain ⟨rfl, hRest⟩ := eq_and_eq_of_append_cons_eq (hPieces piece List.mem_cons_self)
        (hOthers other List.mem_cons_self) h
      rw [ih (fun p hp => hPieces p (List.mem_cons_of_mem _ hp))
        (fun p hp => hOthers p (List.mem_cons_of_mem _ hp)) hRest]

theorem Segment.slash_notMem_raw (s : Segment) : '/' ∉ s.raw.toList := by
  intro h
  simpa [isSegmentChar] using s.raw_chars '/' h

theorem Method.space_notMem_name (method : Method) : ' ' ∉ method.name.toList := by
  cases method <;> decide

namespace Request

def pieces (r : Request) : List (List Char) := r.segments.map (·.raw.toList)

theorem slash_notMem_of_mem_pieces {r : Request} {piece : List Char} (h : piece ∈ r.pieces) :
    '/' ∉ piece := by
  obtain ⟨s, _, rfl⟩ := List.mem_map.mp h
  exact s.slash_notMem_raw

theorem toList_rawPath (r : Request) : r.rawPath.toList = '/' :: closedPieces r.pieces := by
  rw [rawPath, toList_joinPath, List.map_map]
  rfl

theorem pieces_injective {a b : Request} (hMethod : a.method = b.method) (h : a.pieces = b.pieces) :
    a = b := by
  obtain ⟨method, segments⟩ := a
  obtain ⟨method', segments'⟩ := b
  cases hMethod
  have hSegments : segments = segments' :=
    List.map_injective_iff.mpr (fun s t hst => Segment.ext_raw (String.ext hst)) h
  rw [hSegments]

theorem key_injective {a b : Request} (h : a.key = b.key) : a = b := by
  have hChars := congrArg String.toList h
  simp only [key, String.toList_append, toList_rawPath, List.append_assoc] at hChars
  obtain ⟨hName, hPath⟩ := eq_and_eq_of_append_cons_eq a.method.space_notMem_name
    b.method.space_notMem_name hChars
  refine pieces_injective (Method.name_injective (String.ext hName)) ?_
  exact closedPieces_injective (fun _ => slash_notMem_of_mem_pieces)
    (fun _ => slash_notMem_of_mem_pieces) (List.cons.inj hPath).2

/-- All requests that are a prefix of this one, shortest first. -/
def ancestors (r : Request) : List Request := r.segments.inits.map fun segments => { r with segments }

theorem mem_ancestors {a r : Request} : a ∈ r.ancestors ↔ a.isPrefixOf r = true := by
  rw [ancestors, List.mem_map, isPrefixOf, Bool.and_eq_true, beq_iff_eq, List.isPrefixOf_iff_prefix]
  constructor
  · rintro ⟨segments, hSegments, rfl⟩
    exact ⟨rfl, (List.mem_inits _ _).mp hSegments⟩
  · rintro ⟨hMethod, hPrefix⟩
    obtain ⟨method, segments⟩ := a
    cases hMethod
    exact ⟨segments, (List.mem_inits _ _).mpr hPrefix, rfl⟩

/-- Ancestors grow deeper. -/
theorem ancestors_pairwise_depth (r : Request) : r.ancestors.Pairwise fun a b => a.depth < b.depth := by
  rw [ancestors, List.pairwise_map]
  refine List.pairwise_iff_getElem.mpr fun i j hi hj hij => ?_
  rw [List.length_inits] at hi hj
  simp only [depth, List.getElem_inits, List.length_take]
  omega

theorem slashCuts_rawPath (r : Request) :
    slashCuts r.rawPath.toList = r.ancestors.map (·.rawPath.toList) := by
  rw [toList_rawPath, slashCuts_closedPieces fun _ => slash_notMem_of_mem_pieces, pieces,
    List.map_inits, ancestors, List.map_map, List.map_map]
  exact List.map_congr_left fun segments _ => (toList_rawPath { r with segments }).symm

theorem prefixKeys_eq (r : Request) : r.prefixKeys = r.ancestors.reverse.map (·.key) := by
  rw [prefixKeys, slashCuts_rawPath, ← List.map_reverse, List.map_map]
  refine List.map_congr_left fun a ha => ?_
  have hPrefix := mem_ancestors.mp (List.mem_reverse.mp ha)
  rw [isPrefixOf, Bool.and_eq_true, beq_iff_eq] at hPrefix
  simp [key, hPrefix.1]

end Request
end Switchyard.Rest
