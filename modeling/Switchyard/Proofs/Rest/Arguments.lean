import Switchyard.Proofs.Rest.Grammar
import Switchyard.Proofs.Rest.Lifecycle
import Switchyard.Proofs.Rest.Prefixes

/-! # Arguments

A request is handed to a handler whose binding is a prefix of it, and what it has beyond the binding are its
arguments, decoded. Requests are told apart here by the segments as they are written, so that two which are
routed alike have the same arguments.
-/
namespace Switchyard.Rest
set_option autoImplicit false

theorem Segment.text_ne_empty (s : Segment) : s.text ≠ "" := by
  intro hEmpty
  have hSpells : Spells s.raw.toList "" := decodeText?_eq_some_iff.mp (hEmpty ▸ s.decodes)
  exact s.raw_ne_nil hSpells.eq_nil

namespace Request
variable {a b : Request}

/-- The nodes that are there for a segment, of which the root has none. -/
def realNodes (r : Request) : List String := if r.isRoot then [] else r.nodes

theorem realNodes_eq (r : Request) : r.realNodes = r.segments.map (·.text) := by
  unfold realNodes nodes isRoot
  cases hSegments : r.segments <;> simp

/-- What comes behind a prefix completes it. -/
theorem realNodes_append_nodesAfter (h : b.isPrefixOf a = true) :
    b.realNodes ++ a.nodesAfter b.depth = a.realNodes := by
  obtain ⟨-, more, hMore⟩ := isPrefixOf_iff.mp h
  rw [realNodes_eq, realNodes_eq, nodesAfter, depth, ← hMore, List.drop_left, List.map_append]

theorem length_nodesAfter (r : Request) (n : Nat) : (r.nodesAfter n).length = r.depth - n := by
  rw [nodesAfter, List.length_map, List.length_drop, depth]

theorem ne_empty_of_mem_nodesAfter {r : Request} {n : Nat} {node : String} (h : node ∈ r.nodesAfter n) :
    node ≠ "" := by
  obtain ⟨segment, -, rfl⟩ := List.mem_map.mp h
  exact segment.text_ne_empty

theorem eq_of_rawPath_eq (hMethod : a.method = b.method) (hPath : a.rawPath = b.rawPath) : a = b :=
  key_injective (by rw [key, key, hMethod, hPath])

theorem rawPath_eq_iff {method method' : Method} {uri uri' : String} (ha : ofTarget method uri = .ok a)
    (hb : ofTarget method' uri' = .ok b) :
    a.rawPath = b.rawPath ↔ writtenSegments (pathPart uri.toList) = writtenSegments (pathPart uri'.toList) := by
  obtain ⟨-, -, -, hPieces⟩ := ofTarget_eq_ok_iff.mp ha
  obtain ⟨-, -, -, hPieces'⟩ := ofTarget_eq_ok_iff.mp hb
  rw [← hPieces, ← hPieces', ← String.toList_inj, toList_rawPath, toList_rawPath, List.cons_inj_right]
  exact ⟨closedPieces_injective (fun _ => slash_notMem_of_mem_pieces) fun _ => slash_notMem_of_mem_pieces,
    congrArg closedPieces⟩

end Request

namespace Dispatcher
variable {σ : Type} {server : ServerHandle σ} {handlers : List (Handler σ)}
  {d later : Dispatcher Bindings σ} {h : Handler σ} {request : Request}

/-- Whoever is found for a request is bound to a prefix of it. -/
theorem IsLater.isPrefixOf_of_find? (hLater : IsLater d later) (hNew : new server handlers = .ok d)
    (hFound : later.find? request = some h) : h.binding.isPrefixOf request = true := by
  obtain ⟨-, -, hIndex, hHandlers⟩ := new_eq_ok hNew
  obtain ⟨position, hPosition, hHandler⟩ := Option.bind_eq_some_iff.mp hFound
  rw [hLater.index_eq, hIndex] at hPosition
  obtain ⟨binding, hLongest, hLookup⟩ := (Bindings.find?_ofCalls_eq_some_iff _ _ _).mp hPosition
  obtain ⟨before, after, hCalls, -⟩ := List.lookup_eq_some_iff.mp hLookup
  have hCall : (binding, position) ∈ calls handlers := by simp [hCalls]
  obtain ⟨⟨bound, place⟩, hMem, hEq⟩ := List.mem_map.mp hCall
  cases hEq
  have hLast := hLater.getElem?_eq (hHandlers position bound (List.mem_zipIdx_iff_getElem?.mp hMem)).2
  cases hHandler.symm.trans hLast
  exact hLongest.isPrefix

end Dispatcher

/-- A handler is found only for requests that its binding is a prefix of, whatever the dispatcher has served
and whoever has been shut down before. The arguments of such a request, which the logic of the handler sees,
are what the nodes of the request have beyond those of the binding, and none of them is empty. Requests for the
same handler with the same path have the same arguments, and their paths are the same exactly if their targets
have the same written segments in front of the query and the fragment. -/
theorem arguments_complete_the_binding {σ : Type} (h : Handler σ) (request : Request) :
    (∀ (server : ServerHandle σ) (handlers : List (Handler σ)) (d : Dispatcher Bindings σ) (state : σ)
      (calls : List ServiceCall), Dispatcher.new server handlers = .ok d →
        ((Service.start d state).run calls).dispatcher.find? request = some h →
          h.binding.isPrefixOf request = true) ∧
    (h.binding.isPrefixOf request = true →
      (h.context request).arguments = h.arguments request ∧
      h.binding.realNodes ++ h.arguments request = request.realNodes ∧
      (h.arguments request).length = request.depth - h.binding.depth ∧
      h.binding.depth ≤ request.depth ∧
      (∀ argument ∈ h.arguments request, argument ≠ "") ∧
      ∀ other : Request, h.binding.isPrefixOf other = true →
        (request.rawPath = other.rawPath → h.arguments request = h.arguments other) ∧
        ∀ (method method' : Method) (uri uri' : String), Request.ofTarget method uri = .ok request →
          Request.ofTarget method' uri' = .ok other →
            (request.rawPath = other.rawPath ↔
              writtenSegments (pathPart uri.toList) = writtenSegments (pathPart uri'.toList))) := by
  constructor
  · intro server handlers d state calls hNew hFound
    have hFirst : d.IsLater (Service.start d state).dispatcher := .refl (Dispatcher.new_eq_ok hNew).2.1
    have hLater := Service.isLater_run hFirst calls
    exact hLater.isPrefixOf_of_find? hNew hFound
  · intro hPrefix
    refine ⟨rfl, Request.realNodes_append_nodesAfter hPrefix, request.length_nodesAfter _,
      Request.depth_le_of_isPrefixOf hPrefix, fun _ => Request.ne_empty_of_mem_nodesAfter,
      fun other hOther => ⟨fun hPath => ?_, fun _ _ _ _ => Request.rawPath_eq_iff⟩⟩
    have hMethod := (Request.isPrefixOf_iff.mp hPrefix).1.symm.trans (Request.isPrefixOf_iff.mp hOther).1
    rw [Request.eq_of_rawPath_eq hMethod hPath]

/-- A request whose first segment reads like two, from two targets that differ in slashes and query. -/
theorem arguments_complete_the_binding_slashed :
    let h := (Sample.handler ⟨.get, [Sample.slashed]⟩).joined Sample.server
    (∃ d : Dispatcher Bindings Nat, Dispatcher.new Sample.server Sample.handlers = .ok d ∧
      d.find? Sample.request = some h) ∧
    h.binding.isPrefixOf Sample.request = true ∧
    ["a/b"] ++ h.arguments Sample.request = ["a/b", "b"] ∧ (h.arguments Sample.request).length = 1 ∧
    ∃ other, Request.ofTarget .get "//a%2Fb/b?x=1" = .ok Sample.request ∧
      Request.ofTarget .get "/a%2Fb//b/" = .ok other ∧
      h.arguments Sample.request = h.arguments other := by
  intro h
  obtain ⟨d, hNew⟩ := Sample.exists_dispatcher
  have hMem : Sample.handler ⟨.get, [Sample.slashed]⟩ ∈ Sample.handlers :=
    List.mem_map_of_mem Sample.isLongestPrefix.mem
  have hFound := (Dispatcher.find?_of_isLongestPrefix hNew hMem Sample.isLongestPrefix).2
  obtain ⟨hDispatched, hArguments⟩ := arguments_complete_the_binding h Sample.request
  have hPrefix := hDispatched _ _ d 0 [] hNew hFound
  obtain ⟨-, hNodes, hCount, -, -, hAlike⟩ := hArguments hPrefix
  have hFirst : Request.ofTarget .get "//a%2Fb/b?x=1" = .ok Sample.request :=
    Request.ofTarget_eq_ok_iff.mpr ⟨by decide, by decide, rfl, by decide⟩
  have hSecond : Request.ofTarget .get "/a%2Fb//b/" = .ok Sample.request :=
    Request.ofTarget_eq_ok_iff.mpr ⟨by decide, by decide, rfl, by decide⟩
  obtain ⟨hSame, hWritten⟩ := hAlike Sample.request hPrefix
  exact ⟨⟨d, hNew, hFound⟩, hPrefix, hNodes, hCount, _, hFirst, hSecond,
    hSame ((hWritten _ _ _ _ hFirst hSecond).mpr (by decide))⟩

end Switchyard.Rest
