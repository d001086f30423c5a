import Mathlib
import Switchyard.Proofs.Rest.Keys
import Switchyard.Rest.Dispatcher

/-! # Longest-prefix routing

A request is routed to what was first registered under the deepest binding that is a prefix of it,
in whatever order the bindings were registered and whatever else was refused in between.
-/
namespace Switchyard.Rest
set_option autoImplicit false

/-- The binding that a request is routed by. -/
structure IsLongestPrefix (bindings : List Request) (request binding : Request) : Prop where
  mem : binding ∈ bindings
  isPrefix : binding.isPrefixOf request = true
  depth_le : ∀ other ∈ bindings, other.isPrefixOf request = true → other.depth ≤ binding.depth

theorem mem_map_fst_of_lookup {α : Type} {calls : List (Request × α)} {binding : Request} {value : α}
    (h : calls.lookup binding = some value) : binding ∈ calls.map Prod.fst := by
  obtain ⟨before, after, rfl, _⟩ := List.lookup_eq_some_iff.mp h
  exact List.mem_map.mpr ⟨(binding, value), by simp, rfl⟩

theorem lookup_isSome_of_mem {α : Type} {calls : List (Request × α)} {binding : Request}
    (h : binding ∈ calls.map Prod.fst) : ∃ value, calls.lookup binding = some value := by
  obtain ⟨call, hCall, rfl⟩ := List.mem_map.mp h
  exact Option.isSome_iff_exists.mp (List.lookup_isSome_iff.mpr ⟨call, hCall, beq_self_eq_true _⟩)

theorem lookup_eq_some_iff_mem {α : Type} {calls : List (Request × α)}
    (hNodup : (calls.map Prod.fst).Nodup) {binding : Request} {value : α} :
    calls.lookup binding = some value ↔ (binding, value) ∈ calls := by
  constructor
  · intro h
    obtain ⟨before, after, rfl, _⟩ := List.lookup_eq_some_iff.mp h
    simp
  · intro h
    obtain ⟨before, after, rfl⟩ := List.append_of_mem h
    refine List.lookup_eq_some_iff.mpr ⟨before, after, rfl, fun call hCall => ?_⟩
    rw [List.map_append, List.map_cons, List.nodup_append] at hNodup
    have hNe := hNodup.2.2 call.1 (List.mem_map_of_mem hCall) binding List.mem_cons_self
    simpa using Ne.symm hNe

namespace Bindings
variable {α : Type}

theorem get?_eq_some_iff {bindings : Bindings α} {key : String} {value : α} :
    bindings.get? key = some value ↔ (key, value) ∈ bindings.entries := by
  rw [get?, Option.map_eq_some_iff]
  constructor
  · rintro ⟨entry, hFind, rfl⟩
    have hKey : entry.1 = key := by simpa using List.find?_some hFind
    exact hKey ▸ List.mem_of_find?_eq_some hFind
  · intro hMem
    obtain ⟨before, after, hEntries⟩ := List.append_of_mem hMem
    have hSorted := bindings.sorted
    rw [hEntries, List.pairwise_append] at hSorted
    refine ⟨(key, value), ?_, rfl⟩
    rw [hEntries, List.find?_append, List.find?_eq_none.mpr, Option.none_or]
    · simp
    · intro entry hEntry hKey
      have hLt := hSorted.2.2 entry hEntry (key, value) List.mem_cons_self
      rw [beq_iff_eq.mp hKey] at hLt
      exact String.lt_irrefl _ hLt

theorem get?_eq_none_iff {bindings : Bindings α} {key : String} :
    bindings.get? key = none ↔ ∀ entry ∈ bindings.entries, entry.1 ≠ key := by
  rw [get?, Option.map_eq_none_iff, List.find?_eq_none]
  simp

theorem insert_of_get?_eq_none {bindings : Bindings α} {binding : Request}
    (hNew : bindings.get? binding.key = none) (value : α) :
    ∃ extended, bindings.insert binding value = .ok extended ∧
      ∀ key, extended.get? key = if key = binding.key then some value else bindings.get? key := by
  rw [insert, dif_pos (get?_eq_none_iff.mp hNew)]
  refine ⟨_, rfl, fun key => Option.ext fun found => ?_⟩
  split
  case isTrue h =>
    rw [get?_eq_some_iff, mem_insertEntry, h, ← get?_eq_some_iff, hNew]
    simp [eq_comm]
  case isFalse h =>
    rw [get?_eq_some_iff, mem_insertEntry, ← get?_eq_some_iff]
    simp [h]

theorem insert_of_get?_eq_some {bindings : Bindings α} {binding : Request} {old : α}
    (hOld : bindings.get? binding.key = some old) (value : α) :
    bindings.insert binding value = .error (.duplicateBinding binding.display) := by
  rw [insert, dif_neg]
  intro hNew
  exact hNew _ (get?_eq_some_iff.mp hOld) rfl

/-- A registration, which leaves everything as it is when it is refused. -/
def offer (bindings : Bindings α) (call : Request × α) : Bindings α :=
  match bindings.insert call.1 call.2 with
  | .ok extended => extended
  | .error _ => bindings

def ofCalls (calls : List (Request × α)) : Bindings α := calls.foldl offer empty

theorem get?_offer (bindings : Bindings α) (call : Request × α) (request : Request) :
    (bindings.offer call).get? request.key =
      (bindings.get? request.key).or (if request = call.1 then some call.2 else none) := by
  cases hOld : bindings.get? call.1.key with
  | none =>
    obtain ⟨extended, hInsert, hGet⟩ := insert_of_get?_eq_none hOld call.2
    rw [offer, hInsert]
    by_cases h : request = call.1
    · simp [h, hGet, hOld]
    · have hKey : request.key ≠ call.1.key := fun hKey => h (Request.key_injective hKey)
      simp [h, hGet, hKey]
  | some old =>
    rw [offer, insert_of_get?_eq_some hOld]
    by_cases h : request = call.1
    · simp [h, hOld]
    · simp [h]

theorem get?_foldl_offer (calls : List (Request × α)) (bindings : Bindings α) (request : Request) :
    (calls.foldl offer bindings).get? request.key =
      (bindings.get? request.key).or (calls.lookup request) := by
  induction calls generalizing bindings with
  | nil => simp
  | cons call calls ih =>
    rw [List.foldl_cons, ih, get?_offer, Option.or_assoc, List.lookup_cons]
    by_cases h : request = call.1
    · simp [h]
    · simp [h, beq_eq_false_iff_ne.mpr h]

/-- The first registration under a binding counts. -/
theorem get?_ofCalls (calls : List (Request × α)) (request : Request) :
    (ofCalls calls).get? request.key = calls.lookup request := by
  rw [ofCalls, get?_foldl_offer]
  simp [get?, empty]

theorem find?_ofCalls (calls : List (Request × α)) (request : Request) :
    (ofCalls calls).find? request = request.ancestors.reverse.findSome? fun binding => calls.lookup binding := by
  rw [find?, Request.prefixKeys_eq, List.findSome?_map]
  simp only [Function.comp_def, get?_ofCalls]

theorem find?_ofCalls_eq_some_iff (calls : List (Request × α)) (request : Request) (value : α) :
    (ofCalls calls).find? request = some value ↔
      ∃ binding, IsLongestPrefix (calls.map Prod.fst) request binding ∧
        calls.lookup binding = some value := by
  have hDepth := List.pairwise_reverse.mpr request.ancestors_pairwise_depth
  rw [find?_ofCalls, List.findSome?_eq_some_iff]
  constructor
  · rintro ⟨deeper, binding, others, hSplit, hLookup, hDeeper⟩
    rw [hSplit, List.pairwise_append, List.pairwise_cons] at hDepth
    refine ⟨binding, ⟨mem_map_fst_of_lookup hLookup, ?_, fun other hOther hPrefix => ?_⟩, hLookup⟩
    · exact Request.mem_ancestors.mp (List.mem_reverse.mp (by simp [hSplit]))
    · have hMem := List.mem_reverse.mpr (Request.mem_ancestors.mpr hPrefix)
      rw [hSplit, List.mem_append, List.mem_cons] at hMem
      rcases hMem with hMem | rfl | hMem
      · obtain ⟨found, hFound⟩ := lookup_isSome_of_mem hOther
        rw [hDeeper other hMem] at hFound
        cases hFound
      · exact Nat.le_refl _
      · exact Nat.le_of_lt (hDepth.2.1.1 other hMem)
  · rintro ⟨binding, hLongest, hLookup⟩
    have hMem := List.mem_reverse.mpr (Request.mem_ancestors.mpr hLongest.isPrefix)
    obtain ⟨deeper, others, hSplit⟩ := List.append_of_mem hMem
    refine ⟨deeper, binding, others, hSplit, hLookup, fun other hOther => ?_⟩
    rw [hSplit, List.pairwise_append] at hDepth
    have hLt := hDepth.2.2 other hOther binding List.mem_cons_self
    cases hFound : calls.lookup other with
    | none => rfl
    | some found =>
      have hPrefix : other ∈ request.ancestors := List.mem_reverse.mp (by simp [hSplit, hOther])
      have hLe := hLongest.depth_le other (mem_map_fst_of_lookup hFound) (Request.mem_ancestors.mp hPrefix)
      omega

theorem find?_ofCalls_eq_none_iff (calls : List (Request × α)) (request : Request) :
    (ofCalls calls).find? request = none ↔
      ∀ binding ∈ calls.map Prod.fst, binding.isPrefixOf request = false := by
  rw [find?_ofCalls, List.findSome?_eq_none_iff]
  constructor
  · intro h binding hBinding
    obtain ⟨value, hValue⟩ := lookup_isSome_of_mem hBinding
    by_contra hPrefix
    have hMem := Request.mem_ancestors.mpr (Bool.of_not_eq_false hPrefix)
    rw [h binding (List.mem_reverse.mpr hMem)] at hValue
    cases hValue
  · intro h binding hBinding
    cases hLookup : calls.lookup binding with
    | none => rfl
    | some value =>
      have hPrefix := Request.mem_ancestors.mp (List.mem_reverse.mp hBinding)
      rw [h binding (mem_map_fst_of_lookup hLookup)] at hPrefix
      cases hPrefix

theorem insert_ofCalls_eq_error_iff (calls : List (Request × α)) (binding : Request) (value : α)
    (cause : Error) :
    (ofCalls calls).insert binding value = .error cause ↔
      binding ∈ calls.map Prod.fst ∧ cause = .duplicateBinding binding.display := by
  cases hLookup : calls.lookup binding with
  | none =>
    obtain ⟨extended, hInsert, _⟩ :=
      insert_of_get?_eq_none ((get?_ofCalls calls binding).trans hLookup) value
    have hNotMem : binding ∉ calls.map Prod.fst := fun hMem => by
      obtain ⟨found, hFound⟩ := lookup_isSome_of_mem hMem
      rw [hLookup] at hFound
      cases hFound
    rw [hInsert]
    simp only [reduceCtorEq, false_iff, not_and]
    exact fun hMem => absurd hMem hNotMem
  | some old =>
    rw [insert_of_get?_eq_some ((get?_ofCalls calls binding).trans hLookup)]
    have hMem := mem_map_fst_of_lookup hLookup
    simp [hMem, eq_comm]

theorem ofCalls_append_of_error {calls : List (Request × α)} {binding : Request} {value : α}
    {cause : Error} (h : (ofCalls calls).insert binding value = .error cause) :
    ofCalls (calls ++ [(binding, value)]) = ofCalls calls := by
  have hOffer : ofCalls (calls ++ [(binding, value)]) = (ofCalls calls).offer (binding, value) := by
    simp [ofCalls]
  rw [hOffer, offer]
  simp [h]

theorem find?_ofCalls_perm {calls others : List (Request × α)} (hPerm : others.Perm calls)
    (hNodup : (calls.map Prod.fst).Nodup) (request : Request) :
    (ofCalls others).find? request = (ofCalls calls).find? request := by
  have hNodup' := (hPerm.map Prod.fst).nodup_iff.mpr hNodup
  have hLookup : ∀ binding, others.lookup binding = calls.lookup binding := fun binding =>
    Option.ext fun value => by
      rw [lookup_eq_some_iff_mem hNodup', lookup_eq_some_iff_mem hNodup, hPerm.mem_iff]
  simp only [find?_ofCalls, hLookup]

/-- When nothing is refused, every binding is new when its turn comes. -/
theorem foldlM_insert_eq_ok {calls : List (Request × α)} {bindings filled : Bindings α}
    (h : calls.foldlM (fun bindings call => bindings.insert call.1 call.2) bindings =
      (.ok filled : Except Error (Bindings α))) :
    filled = calls.foldl offer bindings ∧ (calls.map Prod.fst).Nodup ∧
      ∀ call ∈ calls, bindings.get? call.1.key = none := by
  induction calls generalizing bindings with
  | nil =>
    cases h
    exact ⟨rfl, List.nodup_nil, by simp⟩
  | cons call calls ih =>
    rw [List.foldlM_cons] at h
    cases hInsert : bindings.insert call.1 call.2 with
    | error cause =>
      rw [hInsert] at h
      cases h
    | ok extended =>
      rw [hInsert] at h
      obtain ⟨rfl, hNodup, hNew⟩ := ih h
      have hExtended : extended = bindings.offer call := by simp [offer, hInsert]
      have hCall : bindings.get? call.1.key = none := by
        cases hOld : bindings.get? call.1.key with
        | none => rfl
        | some old =>
          rw [insert_of_get?_eq_some hOld] at hInsert
          cases hInsert
      have hRest : ∀ other ∈ calls, bindings.get? other.1.key = none ∧ other.1 ≠ call.1 := by
        intro other hOther
        have hNone := hNew other hOther
        rw [hExtended, get?_offer, Option.or_eq_none_iff] at hNone
        exact ⟨hNone.1, fun hEq => by simp [hEq] at hNone⟩
      refine ⟨by rw [List.foldl_cons, hExtended], ?_, ?_⟩
      · rw [List.map_cons, List.nodup_cons]
        refine ⟨fun hMem => ?_, hNodup⟩
        obtain ⟨other, hOther, hEq⟩ := List.mem_map.mp hMem
        exact (hRest other hOther).2 hEq
      · intro other hOther
        rcases List.mem_cons.mp hOther with rfl | hOther
        · exact hCall
        · exact (hRest other hOther).1

end Bindings

namespace Handler
variable {σ : Type}

/-- A handler that belongs to the dispatcher of a server. -/
def joined (h : Handler σ) (server : ServerHandle σ) : Handler σ := { h with server? := some server }

theorem associate_eq_ok {h h' : Handler σ} {server : ServerHandle σ}
    (hJoin : h.associate server = .ok h') : h.active = true ∧ h' = h.joined server := by
  unfold associate at hJoin
  split at hJoin
  · cases hJoin
  · split at hJoin
    · cases hJoin
    · cases hJoin
      exact ⟨by simp_all, rfl⟩

end Handler

namespace Dispatcher
variable {σ : Type}

/-- The registrations that the handlers of a dispatcher make. -/
def calls (handlers : List (Handler σ)) : List (Request × Nat) :=
  handlers.zipIdx.map fun (handler, position) => (handler.binding, position)

theorem map_fst_calls (handlers : List (Handler σ)) :
    (calls handlers).map Prod.fst = handlers.map (·.binding) := by
  calc
    (calls handlers).map Prod.fst = (handlers.zipIdx.map Prod.fst).map (·.binding) := by
      rw [calls, List.map_map, List.map_map]
      rfl
    _ = handlers.map (·.binding) := by rw [List.zipIdx_map_fst]

theorem mem_calls {handlers : List (Handler σ)} {handler : Handler σ} {position : Nat}
    (h : handlers[position]? = some handler) : (handler.binding, position) ∈ calls handlers :=
  List.mem_map.mpr ⟨(handler, position), List.mem_zipIdx_iff_getElem?.mpr h, rfl⟩

theorem register_eq_ok {handlers : List (Handler σ)} {index : Bindings Nat}
    (h : register handlers = .ok index) :
    index = .ofCalls (calls handlers) ∧ ((calls handlers).map Prod.fst).Nodup := by
  have hFold : (calls handlers).foldlM (fun (bindings : Bindings Nat) call =>
      bindings.insert call.1 call.2) .empty = (.ok index : Except Error (Bindings Nat)) := by
    rw [calls, List.foldlM_map]
    exact h
  obtain ⟨hIndex, hNodup, _⟩ := Bindings.foldlM_insert_eq_ok hFold
  exact ⟨hIndex, hNodup⟩

theorem associate_cons {server : ServerHandle σ} {first : Nat} {positions : List Nat}
    {handlers : List (Handler σ)} {found : Handler σ} (hFirst : handlers[first]? = some found) :
    associate server (first :: positions) handlers =
      (found.associate server).bind fun found =>
        associate server positions (handlers.set first found) := by
  rw [associate, List.foldlM_cons, hFirst]
  cases h : found.associate server <;> simp only [h] <;> rfl

theorem associate_eq_ok {server : ServerHandle σ} {positions : List Nat}
    {handlers joined : List (Handler σ)} (h : associate server positions handlers = .ok joined)
    {position : Nat} {handler : Handler σ} (hHandler : handlers[position]? = some handler) :
    joined[position]? = some (if position ∈ positions then handler.joined server else handler) ∧
      (position ∈ positions → handler.active = true) := by
  induction positions generalizing handlers handler with
  | nil =>
    cases h
    simp [hHandler]
  | cons first positions ih =>
    cases hFirst : handlers[first]? with
    | none =>
      rw [associate, List.foldlM_cons, hFirst] at h
      have hNe : position ≠ first := fun hEq => by simp [hEq, hFirst] at hHandler
      simpa [hNe] using ih h hHandler
    | some found =>
      rw [associate_cons hFirst] at h
      cases hJoin : found.associate server with
      | error cause =>
        rw [hJoin] at h
        cases h
      | ok found' =>
        rw [hJoin] at h
        obtain ⟨hActive, rfl⟩ := Handler.associate_eq_ok hJoin
        by_cases hEq : position = first
        · subst hEq
          cases hFirst.symm.trans hHandler
          have hLt := (List.getElem?_eq_some_iff.mp hHandler).1
          obtain ⟨hJoined, _⟩ := ih h (List.getElem?_set_self hLt)
          refine ⟨?_, fun _ => hActive⟩
          rw [hJoined]
          simp [Handler.joined]
        · have hSet : (handlers.set first (found.joined server))[position]? = some handler := by
            rw [List.getElem?_set_ne (Ne.symm hEq), hHandler]
          simpa [hEq] using ih h hSet

theorem mem_values {handlers : List (Handler σ)} (hNodup : ((calls handlers).map Prod.fst).Nodup)
    {position : Nat} {handler : Handler σ} (hHandler : handlers[position]? = some handler) :
    position ∈ BindingIndex.values (Bindings.ofCalls (calls handlers)) := by
  have hLookup := (lookup_eq_some_iff_mem hNodup).mpr (mem_calls hHandler)
  have hEntry := Bindings.get?_eq_some_iff.mp ((Bindings.get?_ofCalls _ _).trans hLookup)
  exact List.mem_map.mpr ⟨_, hEntry, rfl⟩

theorem find?_calls {handlers : List (Handler σ)} (hNodup : ((calls handlers).map Prod.fst).Nodup)
    {position : Nat} {handler : Handler σ} (hHandler : handlers[position]? = some handler)
    {request : Request}
    (hLongest : IsLongestPrefix (handlers.map (·.binding)) request handler.binding) :
    BindingIndex.find? (Bindings.ofCalls (calls handlers)) request = some position :=
  (Bindings.find?_ofCalls_eq_some_iff _ _ _).mpr ⟨handler.binding, map_fst_calls handlers ▸ hLongest,
    (lookup_eq_some_iff_mem hNodup).mpr (mem_calls hHandler)⟩

theorem new_eq_ok {server : ServerHandle σ} {handlers : List (Handler σ)}
    {d : Dispatcher Bindings σ} (h : new server handlers = .ok d) :
    ((calls handlers).map Prod.fst).Nodup ∧ d.active = true ∧ d.index = .ofCalls (calls handlers) ∧
      ∀ (position : Nat) (handler : Handler σ), handlers[position]? = some handler →
        handler.active = true ∧ d.handlers[position]? = some (handler.joined server) := by
  unfold new at h
  cases hIndex : (register handlers : Except Error (Bindings Nat)) with
  | error cause =>
    rw [hIndex] at h
    cases h
  | ok index =>
    rw [hIndex] at h
    cases hJoined : associate server (BindingIndex.values index) handlers with
    | error cause =>
      simp only [bind, Except.bind, hJoined] at h
      cases h
    | ok joined =>
      simp only [bind, Except.bind, hJoined] at h
      cases h
      obtain ⟨rfl, hNodup⟩ := register_eq_ok hIndex
      refine ⟨hNodup, rfl, rfl, fun position handler hHandler => ?_⟩
      have hValue := mem_values hNodup hHandler
      obtain ⟨hGet, hActive⟩ := associate_eq_ok hJoined hHandler
      rw [if_pos hValue] at hGet
      exact ⟨hActive hValue, hGet⟩

theorem find?_of_isLongestPrefix {server : ServerHandle σ} {handlers : List (Handler σ)}
    {d : Dispatcher Bindings σ} (h : new server handlers = .ok d) {handler : Handler σ}
    (hMem : handler ∈ handlers) {request : Request}
    (hLongest : IsLongestPrefix (handlers.map (·.binding)) request handler.binding) :
    handler.active = true ∧ d.find? request = some (handler.joined server) := by
  obtain ⟨hNodup, _, hIndex, hHandlers⟩ := new_eq_ok h
  obtain ⟨position, hHandler⟩ := List.mem_iff_getElem?.mp hMem
  obtain ⟨hActive, hJoined⟩ := hHandlers position handler hHandler
  refine ⟨hActive, ?_⟩
  rw [find?, hIndex, find?_calls hNodup hHandler hLongest]
  exact hJoined

theorem find?_of_no_prefix {server : ServerHandle σ} {handlers : List (Handler σ)}
    {d : Dispatcher Bindings σ} (h : new server handlers = .ok d) {request : Request}
    (hNone : ∀ handler ∈ handlers, handler.binding.isPrefixOf request = false) :
    d.find? request = none := by
  obtain ⟨_, _, hIndex, _⟩ := new_eq_ok h
  have hFind : (Bindings.ofCalls (calls handlers)).find? request = none := by
    rw [Bindings.find?_ofCalls_eq_none_iff, map_fst_calls]
    intro binding hBinding
    obtain ⟨handler, hHandler, rfl⟩ := List.mem_map.mp hBinding
    exact hNone handler hHandler
  rw [find?, hIndex]
  exact congrArg (Option.bind · (d.handlers[·]?)) hFind

end Dispatcher

/-- Whatever was registered, and in whatever order, a request finds what was first registered under
its longest prefix, and a dispatcher hands it to the handler that is bound there. -/
theorem routed_by_longest_prefix {α σ : Type} (calls : List (Request × α)) (request : Request) :
    (∀ value, (Bindings.ofCalls calls).find? request = some value ↔
      ∃ binding, IsLongestPrefix (calls.map Prod.fst) request binding ∧
        calls.lookup binding = some value) ∧
    ((Bindings.ofCalls calls).find? request = none ↔
      ∀ binding ∈ calls.map Prod.fst, binding.isPrefixOf request = false) ∧
    (∀ binding value cause, (Bindings.ofCalls calls).insert binding value = .error cause ↔
      binding ∈ calls.map Prod.fst ∧ cause = .duplicateBinding binding.display) ∧
    (∀ binding value cause, (Bindings.ofCalls calls).insert binding value = .error cause →
      (Bindings.ofCalls (calls ++ [(binding, value)])).size = (Bindings.ofCalls calls).size ∧
      (Bindings.ofCalls (calls ++ [(binding, value)])).values = (Bindings.ofCalls calls).values ∧
      ∀ other, (Bindings.ofCalls (calls ++ [(binding, value)])).find? other =
        (Bindings.ofCalls calls).find? other) ∧
    (∀ others, others.Perm calls → (calls.map Prod.fst).Nodup →
      (Bindings.ofCalls others).find? request = (Bindings.ofCalls calls).find? request) ∧
    ∀ (server : ServerHandle σ) (handlers : List (Handler σ)) (d : Dispatcher Bindings σ),
      Dispatcher.new server handlers = .ok d → ∀ state,
        (∀ handler ∈ handlers,
          IsLongestPrefix (handlers.map (·.binding)) request handler.binding →
            handler.active = true ∧ d.find? request = some (handler.joined server) ∧
              d.dispatch request state = (handler.joined server).handle request state) ∧
        ((∀ handler ∈ handlers, handler.binding.isPrefixOf request = false) →
          d.dispatch request state = (.error (.bindingNotFound request.display), state)) := by
  refine ⟨Bindings.find?_ofCalls_eq_some_iff calls request,
    Bindings.find?_ofCalls_eq_none_iff calls request, Bindings.insert_ofCalls_eq_error_iff calls,
    ?_, fun others hPerm hNodup => Bindings.find?_ofCalls_perm hPerm hNodup request, ?_⟩
  · intro binding value cause hRefused
    rw [Bindings.ofCalls_append_of_error hRefused]
    exact ⟨rfl, rfl, fun _ => rfl⟩
  · intro server handlers d hNew state
    have hActive := (Dispatcher.new_eq_ok hNew).2.1
    constructor
    · intro handler hMem hLongest
      obtain ⟨hHandler, hFind⟩ := Dispatcher.find?_of_isLongestPrefix hNew hMem hLongest
      exact ⟨hHandler, hFind, by simp [Dispatcher.dispatch, hActive, hFind]⟩
    · intro hNone
      simp [Dispatcher.dispatch, hActive, Dispatcher.find?_of_no_prefix hNew hNone]

theorem exists_ok_of_toBool {ε α : Type} {result : Except ε α} (h : result.toBool = true) :
    ∃ value, result = .ok value := by
  cases result with
  | ok value => exact ⟨value, rfl⟩
  | error cause => cases h

namespace Sample

def a : Segment := ⟨"a", "a", by decide, List.all_eq_true.mp (by decide), by decide⟩

def b : Segment := ⟨"b", "b", by decide, List.all_eq_true.mp (by decide), by decide⟩

/-- One segment, though it reads like two. -/
def slashed : Segment := ⟨"a%2Fb", "a/b", by decide, List.all_eq_true.mp (by decide), by cbv⟩

def bindings : List Request := [⟨.get, []⟩, ⟨.get, [a]⟩, ⟨.get, [slashed]⟩, ⟨.get, [a, b]⟩]

def request : Request := ⟨.get, [slashed, b]⟩

def server : ServerHandle Nat := ⟨"sample", id⟩

def handler (binding : Request) : Handler Nat :=
  .new binding (.ofFunction fun _ _ n => (.failure (.badRequest ""), n + 1))

def handlers : List (Handler Nat) := bindings.map handler

theorem isLongestPrefix : IsLongestPrefix bindings request ⟨.get, [slashed]⟩ :=
  ⟨by decide, by decide, by decide⟩

theorem exists_dispatcher : ∃ d : Dispatcher Bindings Nat, Dispatcher.new server handlers = .ok d :=
  exists_ok_of_toBool (by decide +kernel)

end Sample

theorem routed_by_longest_prefix_slashed :
    (Bindings.ofCalls (Sample.bindings.zip [0, 1, 2, 3])).find? Sample.request = some 2 ∧
    (Bindings.ofCalls (Sample.bindings.zip [0, 1, 2, 3])).find? ⟨.put, [Sample.a]⟩ = none ∧
    (Bindings.ofCalls (Sample.bindings.zip [0, 1, 2, 3] ++ [(⟨.get, [Sample.a]⟩, 4)])).size = 4 ∧
    (Bindings.ofCalls (Sample.bindings.zip [0, 1, 2, 3]).reverse).find? Sample.request = some 2 ∧
    ∃ d : Dispatcher Bindings Nat, Dispatcher.new Sample.server Sample.handlers = .ok d ∧
      d.dispatch Sample.request 0 =
        ((Sample.handler ⟨.get, [Sample.slashed]⟩).joined Sample.server).handle Sample.request 0 ∧
      d.dispatch ⟨.put, [Sample.a]⟩ 0 = (.error (.bindingNotFound "PUT /a/"), 0) := by
  obtain ⟨hFound, -, hRefused, hKept, hOrder, hDispatch⟩ :=
    routed_by_longest_prefix (σ := Nat) (Sample.bindings.zip [0, 1, 2, 3]) Sample.request
  obtain ⟨-, hNone, -, -, -, hUnbound⟩ :=
    routed_by_longest_prefix (σ := Nat) (Sample.bindings.zip [0, 1, 2, 3]) ⟨.put, [Sample.a]⟩
  have hSlashed := (hFound 2).mpr ⟨_, Sample.isLongestPrefix, by decide⟩
  refine ⟨hSlashed, hNone.mpr (by decide), ?_, ?_, ?_⟩
  · exact (hKept _ _ _ ((hRefused _ _ _).mpr ⟨by decide, rfl⟩)).1
  · exact (hOrder _ (List.reverse_perm _) (by decide)).trans hSlashed
  · obtain ⟨d, hNew⟩ := Sample.exists_dispatcher
    obtain ⟨hHanded, -⟩ := hDispatch _ _ d hNew 0
    obtain ⟨-, hNotFound⟩ := hUnbound _ _ d hNew 0
    have hMem : Sample.handler ⟨.get, [Sample.slashed]⟩ ∈ Sample.handlers :=
      List.mem_map_of_mem Sample.isLongestPrefix.mem
    exact ⟨d, hNew, (hHanded _ hMem Sample.isLongestPrefix).2.2, hNotFound (by decide)⟩

end Switchyard.Rest
