import Switchyard.Rest.Segment

/-! # Paths

How the path is cut out of a target and into segments, and how it is put together again. Empty
pieces between slashes do not count, so a path in normal form starts and ends with one slash.
-/
namespace Switchyard.Rest
set_option autoImplicit false

/-- What stands before the query and the fragment. -/
def pathPart (uri : List Char) : List Char :=
  uri.takeWhile fun c => c != '?' && c != '#'

def writtenSegments (path : List Char) : List (List Char) :=
  (path.splitOn '/').filter (· ≠ [])

theorem mem_of_mem_splitOn {c : Char} {piece path : List Char} (hPiece : piece ∈ path.splitOn '/')
    (h : c ∈ piece) : c ∈ path ∧ c ≠ '/' := by
  induction path generalizing piece with
  | nil =>
    rw [List.splitOn_nil, List.mem_singleton] at hPiece
    simp [hPiece] at h
  | cons x rest ih =>
    rw [List.splitOn, List.splitOnP_cons_eq_if_modifyHead] at hPiece
    by_cases hx : x = '/'
    · rw [if_pos (by simp [hx])] at hPiece
      rcases List.mem_cons.mp hPiece with rfl | hRest
      · simp at h
      · exact ⟨List.mem_cons_of_mem _ (ih hRest h).1, (ih hRest h).2⟩
    · rw [if_neg (by simp [hx]), ← List.splitOn] at hPiece
      cases hSplit : rest.splitOn '/' with
      | nil => simp [hSplit] at hPiece
      | cons first others =>
        rw [hSplit, List.modifyHead_cons, List.mem_cons] at hPiece
        rcases hPiece with rfl | hOther
        · rcases List.mem_cons.mp h with rfl | hc
          · exact ⟨List.mem_cons_self, hx⟩
          · have := ih (hSplit ▸ List.mem_cons_self) hc
            exact ⟨List.mem_cons_of_mem _ this.1, this.2⟩
        · have := ih (hSplit ▸ List.mem_cons_of_mem _ hOther) h
          exact ⟨List.mem_cons_of_mem _ this.1, this.2⟩

theorem not_mark_of_mem_pathPart {c : Char} {uri : List Char} (h : c ∈ pathPart uri) :
    c ≠ '?' ∧ c ≠ '#' := by
  have := List.all_takeWhile (l := uri) (p := fun c => c != '?' && c != '#')
  simpa using List.all_eq_true.mp this c h

/-- The segments of a path without illegal characters can be read. -/
theorem isSegment_of_mem {uri written : List Char} (hLegal : (pathPart uri).find? isIllegal = none)
    (h : written ∈ writtenSegments (pathPart uri)) :
    written ≠ [] ∧ ∀ c ∈ written, isSegmentChar c = true := by
  rw [writtenSegments, List.mem_filter] at h
  refine ⟨by simpa using h.2, fun c hc => ?_⟩
  obtain ⟨hPath, hSlash⟩ := mem_of_mem_splitOn h.1 hc
  have hMark := not_mark_of_mem_pathPart hPath
  have hIllegal := List.find?_eq_none.mp hLegal c hPath
  simp [isSegmentChar, hIllegal, hSlash, hMark]

/-- The path whose segments are `nodes`. -/
def joinPath (nodes : List String) : String :=
  "/" ++ String.join (nodes.map (· ++ "/"))

/-- Every beginning of a text that ends in a slash, shortest first. -/
def slashCuts : List Char → List (List Char)
  | [] => []
  | c :: rest => (if c = '/' then [[c]] else []) ++ (slashCuts rest).map (c :: ·)

end Switchyard.Rest
