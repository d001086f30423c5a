import Mathlib.Data.List.TakeWhile
import Switchyard.Proofs.Rest.Keys

/-! # The normal form of a request

A target is accepted as the request that has its written segments, and no two requests have the same.
What is written behind the path and how many slashes stand between two segments does not matter. The
routing key of a request is read as that request.
-/
namespace Switchyard.Rest
set_option autoImplicit false

section Path
variable {mark : Char} {path before after uri : List Char} {pieces : List (List Char)}

theorem writtenSegments_append_slash (before after : List Char) :
    writtenSegments (before ++ '/' :: after) = writtenSegments before ++ writtenSegments after := by
  rw [writtenSegments, List.splitOn_append_cons_self, List.filter_append]
  rfl

theorem writtenSegments_slash (after : List Char) :
    writtenSegments ('/' :: after) = writtenSegments after := by
  have hNone : writtenSegments [] = [] := rfl
  simpa [hNone] using writtenSegments_append_slash [] after

theorem writtenSegments_eq_singleton (hSome : path ≠ []) (hSlash : '/' ∉ path) :
    writtenSegments path = [path] := by
  simp [writtenSegments, List.splitOn_eq_singleton hSlash, hSome]

theorem writtenSegments_closedPieces (hPieces : ∀ piece ∈ pieces, piece ≠ [] ∧ '/' ∉ piece) :
    writtenSegments (closedPieces pieces) = pieces := by
  induction pieces with
  | nil => rfl
  | cons piece pieces ih =>
    obtain ⟨hSome, hSlash⟩ := hPieces piece List.mem_cons_self
    rw [closedPieces_cons, writtenSegments_append_slash, writtenSegments_eq_singleton hSome hSlash,
      ih fun other hOther => hPieces other (List.mem_cons_of_mem _ hOther)]
    rfl

theorem pathPart_append (uri after : List Char) :
    pathPart (uri ++ after) = if pathPart uri = uri then uri ++ pathPart after else pathPart uri := by
  have hAppend : pathPart (uri ++ after) =
      if (pathPart uri).length = uri.length then uri ++ pathPart after else pathPart uri :=
    List.takeWhile_append
  rw [hAppend]
  by_cases hUri : pathPart uri = uri
  · rw [if_pos hUri, if_pos (congrArg List.length hUri)]
  · have hCut : (pathPart uri).length ≠ uri.length := fun hLength =>
      hUri ((List.takeWhile_prefix _).eq_of_length hLength)
    rw [if_neg hUri, if_neg hCut]

theorem pathPart_append_mark (hMark : mark = '?' ∨ mark = '#') (uri after : List Char) :
    pathPart (uri ++ mark :: after) = pathPart uri := by
  have hNothing : pathPart (mark :: after) = [] := by rcases hMark with rfl | rfl <;> rfl
  rw [pathPart_append, hNothing, List.append_nil]
  split
  · exact Eq.symm ‹_›
  · rfl

theorem pathPart_slash (after : List Char) : pathPart ('/' :: after) = '/' :: pathPart after := rfl

end Path

theorem mapM_eq_ok_iff {ε α β γ : Type} {f : α → Except ε β} {source : α → γ} {view : β → γ}
    (h : ∀ input output, f input = .ok output ↔ view output = source input) {inputs : List α}
    {outputs : List β} : inputs.mapM f = .ok outputs ↔ outputs.map view = inputs.map source := by
  induction inputs generalizing outputs with
  | nil => simp [pure, Except.pure, eq_comm]
  | cons input inputs ih =>
    rw [List.mapM_cons]
    constructor
    · intro hAll
      cases hFirst : f input with
      | error cause =>
        rw [hFirst] at hAll
        cases hAll
      | ok output =>
        cases hRest : inputs.mapM f with
        | error cause =>
          simp only [bind, Except.bind, hFirst, hRest] at hAll
          cases hAll
        | ok others =>
          simp only [bind, Except.bind, hFirst, hRest] at hAll
          cases hAll
          rw [List.map_cons, List.map_cons, (h input output).mp hFirst, ih.mp hRest]
    · intro hViews
      obtain ⟨output, others, rfl, hFirst, hRest⟩ := List.map_eq_cons_iff.mp hViews
      rw [(h input output).mpr hFirst, ih.mpr hRest]
      rfl

theorem mapError_eq_ok_iff {ε ε' α : Type} {result : Except ε α} {f : ε → ε'} {a : α} :
    result.mapError f = .ok a ↔ result = .ok a := by
  cases result <;> simp [Except.mapError]

theorem Segment.read_eq_ok_iff {written : List Char}
    {h : written ≠ [] ∧ ∀ c ∈ written, isSegmentChar c = true} {s : Segment} :
    Segment.read written h = .ok s ↔ s.raw.toList = written := by
  unfold Segment.read
  constructor
  · intro hRead
    split at hRead
    · cases hRead
    · split at hRead
      · cases hRead
      · cases hRead
        exact String.toList_ofList
  · rintro rfl
    obtain ⟨bytes, hBytes, -⟩ := Option.bind_eq_some_iff.mp s.decodes
    split
    · rename_i hNone
      cases hBytes.symm.trans hNone
    · split
      · rename_i hNone
        cases s.decodes.symm.trans hNone
      · exact congrArg Except.ok (ext_raw String.ofList_toList)

namespace Request
variable {method : Method} {uri : String} {r : Request} {segments : List Segment}

theorem readSegments_eq_ok_iff {hLegal : (pathPart uri.toList).find? isIllegal = none} :
    readSegments uri hLegal = .ok segments ↔
      segments.map (·.raw.toList) = writtenSegments (pathPart uri.toList) := by
  conv => rhs; rhs; rw [← List.attach_map_subtype_val (writtenSegments (pathPart uri.toList))]
  refine mapM_eq_ok_iff fun ⟨written, hWritten⟩ segment => ?_
  exact mapError_eq_ok_iff.trans Segment.read_eq_ok_iff

/-- A target is accepted as the request that has its method and its written segments. -/
theorem ofTarget_eq_ok_iff : ofTarget method uri = .ok r ↔
    uri.toList.head? = some '/' ∧ (pathPart uri.toList).find? isIllegal = none ∧
      r.method = method ∧ r.pieces = writtenSegments (pathPart uri.toList) := by
  unfold ofTarget
  by_cases hSlash : uri.toList.head? = some '/'
  · rw [if_pos hSlash]
    split
    · rename_i c hIllegal
      simp [hIllegal]
    · rename_i hLegal
      constructor
      · intro hRead
        cases hSegments : readSegments uri hLegal with
        | error cause =>
          rw [hSegments] at hRead
          cases hRead
        | ok segments =>
          rw [hSegments] at hRead
          cases hRead
          exact ⟨hSlash, hLegal, rfl, readSegments_eq_ok_iff.mp hSegments⟩
      · rintro ⟨-, -, rfl, hPieces⟩
        rw [readSegments_eq_ok_iff.mpr hPieces]
        rfl
  · simp [hSlash]

theorem exists_pieces_eq {pieces : List (List Char)}
    (hPieces : ∀ piece ∈ pieces, piece ≠ [] ∧ ∀ c ∈ piece, isSegmentChar c = true)
    (hText : ∀ piece ∈ pieces, decodeText? piece ≠ none) :
    ∃ segments : List Segment, segments.map (·.raw.toList) = pieces := by
  induction pieces with
  | nil => exact ⟨[], rfl⟩
  | cons piece pieces ih =>
    obtain ⟨segments, hSegments⟩ := ih (fun other hOther => hPieces other (List.mem_cons_of_mem _ hOther))
      (fun other hOther => hText other (List.mem_cons_of_mem _ hOther))
    obtain ⟨text, hDecodes⟩ := Option.ne_none_iff_exists'.mp (hText piece List.mem_cons_self)
    obtain ⟨hSome, hChars⟩ := hPieces piece List.mem_cons_self
    have hRaw : (String.ofList piece).toList = piece := String.toList_ofList
    refine ⟨⟨String.ofList piece, text, by rwa [hRaw], by rwa [hRaw], by rwa [hRaw]⟩ :: segments, ?_⟩
    rw [List.map_cons, hSegments, hRaw]

/-- A target is accepted if its path is absolute and legal and every segment can be decoded. -/
theorem exists_ofTarget_iff (method : Method) (uri : String) :
    (∃ r, ofTarget method uri = .ok r) ↔
      uri.toList.head? = some '/' ∧ (pathPart uri.toList).find? isIllegal = none ∧
        ∀ written ∈ writtenSegments (pathPart uri.toList), decodeText? written ≠ none := by
  constructor
  · rintro ⟨r, hAccepted⟩
    obtain ⟨hHead, hLegal, -, hPieces⟩ := ofTarget_eq_ok_iff.mp hAccepted
    refine ⟨hHead, hLegal, fun written hWritten => ?_⟩
    rw [← hPieces] at hWritten
    obtain ⟨segment, -, rfl⟩ := List.mem_map.mp hWritten
    simp [segment.decodes]
  · rintro ⟨hHead, hLegal, hText⟩
    obtain ⟨segments, hSegments⟩ := exists_pieces_eq (fun _ => isSegment_of_mem hLegal) hText
    exact ⟨⟨method, segments⟩, ofTarget_eq_ok_iff.mpr ⟨hHead, hLegal, rfl, hSegments⟩⟩

/-- Neither a query nor a fragment matters. -/
theorem ofTarget_append_mark {mark : Char} (hMark : mark = '?' ∨ mark = '#') (uri : String)
    (behind : List Char) : ofTarget method (uri ++ String.ofList (mark :: behind)) = .ok r ↔
      ofTarget method uri = .ok r := by
  have hHead : (uri.toList ++ mark :: behind).head? = some '/' ↔ uri.toList.head? = some '/' := by
    cases uri.toList with
    | nil => rcases hMark with rfl | rfl <;> simp
    | cons c rest => simp
  rw [ofTarget_eq_ok_iff, ofTarget_eq_ok_iff, String.toList_append, String.toList_ofList, hHead,
    pathPart_append_mark hMark]

theorem ofTarget_double_slash (before after : String) :
    ofTarget method (before ++ "//" ++ after) = .ok r ↔
      ofTarget method (before ++ "/" ++ after) = .ok r := by
  have hTwo : (before ++ "//" ++ after).toList = before.toList ++ '/' :: '/' :: after.toList := by simp
  have hOne : (before ++ "/" ++ after).toList = before.toList ++ '/' :: after.toList := by simp
  rw [ofTarget_eq_ok_iff, ofTarget_eq_ok_iff, hTwo, hOne, pathPart_append, pathPart_append]
  have hHead : (before.toList ++ '/' :: '/' :: after.toList).head? =
      (before.toList ++ '/' :: after.toList).head? := by
    cases before.toList <;> rfl
  rw [hHead]
  split
  · simp [pathPart_slash, writtenSegments_append_slash, writtenSegments_slash, List.find?_append]
  · rfl

/-- Nor does a slash at the end, unless there is nothing in front of it. -/
theorem ofTarget_append_slash_iff (hSome : uri ≠ "") :
    ofTarget method (uri ++ "/") = .ok r ↔ ofTarget method uri = .ok r := by
  have hLast : (uri ++ "/").toList = uri.toList ++ ['/'] := by simp
  have hHead : (uri.toList ++ ['/']).head? = uri.toList.head? :=
    List.head?_append_of_ne_nil _ (by simpa using hSome)
  have hLegal : (uri.toList ++ ['/']).find? isIllegal = uri.toList.find? isIllegal := by
    rw [List.find?_append]
    exact Option.or_none
  have hPieces : writtenSegments (uri.toList ++ ['/']) = writtenSegments uri.toList :=
    (writtenSegments_append_slash _ _).trans (List.append_nil _)
  rw [ofTarget_eq_ok_iff, ofTarget_eq_ok_iff, hLast, hHead, pathPart_append]
  split
  case isTrue hUri =>
    have hSlash : pathPart ['/'] = ['/'] := rfl
    rw [hSlash, hLegal, hPieces, hUri]
  case isFalse => rfl

theorem ofTarget_append_slash (h : ofTarget method uri = .ok r) :
    ofTarget method (uri ++ "/") = .ok r := by
  have hSome : uri ≠ "" := fun hEmpty => by
    have hHead := (ofTarget_eq_ok_iff.mp h).1
    rw [hEmpty] at hHead
    cases hHead
  exact (ofTarget_append_slash_iff hSome).mpr h

theorem mem_rawPath {c : Char} (h : c ∈ r.rawPath.toList) : c = '/' ∨ isSegmentChar c = true := by
  rw [toList_rawPath, List.mem_cons, closedPieces, List.mem_flatMap] at h
  rcases h with rfl | ⟨piece, hPiece, hc⟩
  · exact .inl rfl
  · obtain ⟨segment, -, rfl⟩ := List.mem_map.mp hPiece
    rcases List.mem_append.mp hc with hc | hc
    · exact .inr (segment.raw_chars c hc)
    · exact .inl (List.mem_singleton.mp hc)

theorem not_isIllegal_of_mem_rawPath {c : Char} (h : c ∈ r.rawPath.toList) : isIllegal c = false := by
  rcases mem_rawPath h with rfl | hc
  · decide
  · simp [isSegmentChar] at hc
    exact hc.1.1.1

theorem pathPart_rawPath (r : Request) : pathPart r.rawPath.toList = r.rawPath.toList := by
  refine List.takeWhile_eq_self_iff.mpr fun c hc => ?_
  rcases mem_rawPath hc with rfl | hSegment
  · decide
  · simp [isSegmentChar] at hSegment
    simp [hSegment]

theorem ofTarget_rawPath (r : Request) : ofTarget r.method r.rawPath = .ok r := by
  have hPieces : ∀ piece ∈ r.pieces, piece ≠ [] ∧ '/' ∉ piece := fun piece hPiece => by
    obtain ⟨segment, -, rfl⟩ := List.mem_map.mp hPiece
    exact ⟨segment.raw_ne_nil, segment.slash_notMem_raw⟩
  rw [ofTarget_eq_ok_iff, pathPart_rawPath]
  refine ⟨by rw [toList_rawPath]; rfl, List.find?_eq_none.mpr fun c hc => ?_, rfl, ?_⟩
  · simp [not_isIllegal_of_mem_rawPath hc]
  · rw [toList_rawPath, writtenSegments_slash, writtenSegments_closedPieces hPieces]

theorem parse_key (r : Request) : parse r.key = .ok r := by
  have hSpace : ' ' ∉ r.rawPath.toList := fun h => by
    have hLegal := not_isIllegal_of_mem_rawPath h
    revert hLegal
    decide
  have hParts : r.key.toList.splitOn ' ' = [r.method.name.toList, r.rawPath.toList] := by
    have hKey : r.key.toList = r.method.name.toList ++ ' ' :: r.rawPath.toList := by simp [key]
    rw [hKey, List.splitOn_append_cons_self, List.splitOn_eq_singleton r.method.space_notMem_name,
      List.splitOn_eq_singleton hSpace]
    rfl
  rw [parse, hParts]
  simp only [String.ofList_toList, ofParts, (Method.ofName?_eq_some_iff _ _).mpr rfl]
  exact ofTarget_rawPath r

end Request

/-- Two accepted targets are the same request if and only if their paths have the same written
segments, and nothing else about them can then differ. What stands behind the path does not matter,
nor do further slashes, but an escaped slash does. The routing key of a request is read as that
request. -/
theorem equal_iff_written_alike (method : Method) (first second : String) (a b : Request)
    (hFirst : Request.ofTarget method first = .ok a) (hSecond : Request.ofTarget method second = .ok b) :
    let written (uri : String) := writtenSegments (pathPart uri.toList)
    (a.key = b.key ↔ written first = written second) ∧
    (a = b ↔ written first = written second) ∧
    (written first = written second →
      hash a = hash b ∧ a.nodes = b.nodes ∧ a.rawNodes = b.rawNodes ∧ a.path = b.path ∧
      a.rawPath = b.rawPath ∧ a.display = b.display ∧ a.depth = b.depth ∧
      a.prefixKeys = b.prefixKeys) ∧
    (∀ (mark : Char) (uri : String) (behind : List Char) (r : Request), mark = '?' ∨ mark = '#' →
      (Request.ofTarget method (uri ++ String.ofList (mark :: behind)) = .ok r ↔
        Request.ofTarget method uri = .ok r)) ∧
    (∀ (before after : String) (r : Request),
      Request.ofTarget method (before ++ "//" ++ after) = .ok r ↔
        Request.ofTarget method (before ++ "/" ++ after) = .ok r) ∧
    (∀ (uri : String) (r : Request), Request.ofTarget method uri = .ok r →
      Request.ofTarget method (uri ++ "/") = .ok r) ∧
    (∃ slashed split : Request, Request.ofTarget method "/a%2Fb/" = .ok slashed ∧
      Request.ofTarget method "/a/b/" = .ok split ∧ slashed.key ≠ split.key) ∧
    ∀ r : Request, Request.ofTarget r.method r.rawPath = .ok r ∧ Request.parse r.key = .ok r := by
  intro written
  have hEqual {first second : String} {a b : Request} (hFirst : Request.ofTarget method first = .ok a)
      (hSecond : Request.ofTarget method second = .ok b) : a = b ↔ written first = written second := by
    obtain ⟨-, -, hMethod, hPieces⟩ := Request.ofTarget_eq_ok_iff.mp hFirst
    obtain ⟨-, -, hMethod', hPieces'⟩ := Request.ofTarget_eq_ok_iff.mp hSecond
    constructor
    · rintro rfl
      exact hPieces.symm.trans hPieces'
    · intro hAlike
      exact Request.pieces_injective (hMethod.trans hMethod'.symm)
        (hPieces.trans (hAlike.trans hPieces'.symm))
  refine ⟨?_, hEqual hFirst hSecond, ?_,
    fun mark uri behind r hMark => Request.ofTarget_append_mark hMark uri behind,
    fun before after r => Request.ofTarget_double_slash before after,
    fun uri r => Request.ofTarget_append_slash, ?_,
    fun r => ⟨Request.ofTarget_rawPath r, Request.parse_key r⟩⟩
  · rw [← hEqual hFirst hSecond]
    exact ⟨Request.key_injective, congrArg Request.key⟩
  · intro hAlike
    obtain rfl := (hEqual hFirst hSecond).mpr hAlike
    exact ⟨rfl, rfl, rfl, rfl, rfl, rfl, rfl, rfl⟩
  · obtain ⟨slashed, hSlashed⟩ :=
      (Request.exists_ofTarget_iff method "/a%2Fb/").mpr ⟨by decide, by decide, by decide⟩
    obtain ⟨split, hSplit⟩ :=
      (Request.exists_ofTarget_iff method "/a/b/").mpr ⟨by decide, by decide, by decide⟩
    refine ⟨slashed, split, hSlashed, hSplit, fun hKey => ?_⟩
    have hAlike := (hEqual hSlashed hSplit).mp (Request.key_injective hKey)
    revert hAlike
    decide

/-- Two targets of the same request that differ in their slashes and behind the path. -/
theorem equal_iff_written_alike_query : ∃ a b : Request,
    Request.ofTarget .get "/a%2Fb/c?x=1" = .ok a ∧ Request.ofTarget .get "//a%2Fb//c/#y" = .ok b ∧
      a = b ∧ hash a = hash b ∧ a.prefixKeys = b.prefixKeys ∧ Request.parse a.key = .ok b := by
  obtain ⟨a, hFirst⟩ := (Request.exists_ofTarget_iff .get "/a%2Fb/c?x=1").mpr
    ⟨by decide, by decide, by decide⟩
  obtain ⟨b, hSecond⟩ := (Request.exists_ofTarget_iff .get "//a%2Fb//c/#y").mpr
    ⟨by decide, by decide, by decide⟩
  obtain ⟨-, hEqual, hSame, -, -, -, -, hRead⟩ := equal_iff_written_alike .get _ _ a b hFirst hSecond
  have hAlike := hSame (by decide)
  exact ⟨a, b, hFirst, hSecond, hEqual.mpr (by decide), hAlike.1, hAlike.2.2.2.2.2.2.2,
    (hRead a).2.trans (congrArg Except.ok (hEqual.mpr (by decide)))⟩

end Switchyard.Rest
