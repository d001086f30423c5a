import Switchyard.Proofs.Rest.Routing
import Switchyard.Proofs.Rest.Service

/-! # Dispatchers alike

Two dispatchers may keep their handlers at different positions. If the same handlers stand under the same
keys, and none of them under two, every call is answered alike and leaves them alike.
-/
namespace Switchyard.Rest
set_option autoImplicit false

theorem Bindings.eq_of_mem_entries {α : Type} {bindings : Bindings α} {key : String} {value other : α}
    (h : (key, value) ∈ bindings.entries) (hOther : (key, other) ∈ bindings.entries) : value = other :=
  Option.some.inj ((get?_eq_some_iff.mpr h).symm.trans (get?_eq_some_iff.mpr hOther))

namespace Dispatcher
variable {σ : Type} {d e : Dispatcher Bindings σ} {key : String} {p q : Nat} {request : Request}

/-- No handler stands under two keys. -/
def Separate (d : Dispatcher Bindings σ) : Prop :=
  ∀ key other position, (key, position) ∈ d.index.entries → (other, position) ∈ d.index.entries → key = other

structure Alike (d e : Dispatcher Bindings σ) : Prop where
  server : d.server = e.server
  active : d.active = e.active
  keys : d.index.entries.map (·.1) = e.index.entries.map (·.1)
  handler : ∀ key p q, (key, p) ∈ d.index.entries → (key, q) ∈ e.index.entries →
    d.handlers[p]? = e.handlers[q]?
  left : d.Separate
  right : e.Separate

theorem index_shutdownAt (d : Dispatcher Bindings σ) (position : Nat) (state : σ) :
    (d.shutdownAt position state).1.index = d.index := by
  rw [shutdownAt_fst]

theorem getElem?_shutdownAt (hd : d.Separate) (h : (key, p) ∈ d.index.entries) {other : String}
    {position : Nat} (hOther : (other, position) ∈ d.index.entries) (state : σ) :
    (d.shutdownAt p state).1.handlers[position]? =
      if other = key then d.handlers[position]?.map Handler.stopped else d.handlers[position]? := by
  rw [shutdownAt_fst, List.getElem?_modify]
  by_cases hKey : other = key
  · subst hKey
    simp [Bindings.eq_of_mem_entries h hOther]
  · have hNe : p ≠ position := fun hEq => hKey (hd _ _ _ hOther (hEq ▸ h))
    simp [hKey, hNe]

namespace Alike

theorem size_eq (h : Alike d e) : d.size = e.size := by
  have hLength : d.index.entries.length = e.index.entries.length := by
    simpa using congrArg List.length h.keys
  exact hLength

theorem get?_cases (h : Alike d e) (key : String) :
    (d.index.get? key = none ∧ e.index.get? key = none) ∨
      ∃ p q, d.index.get? key = some p ∧ e.index.get? key = some q := by
  have hMem : key ∈ d.index.entries.map (·.1) ↔ key ∈ e.index.entries.map (·.1) := by rw [h.keys]
  by_cases hKey : key ∈ d.index.entries.map (·.1)
  · obtain ⟨⟨_, p⟩, hp, rfl⟩ := List.mem_map.mp hKey
    obtain ⟨⟨_, q⟩, hq, hSame⟩ := List.mem_map.mp (hMem.mp hKey)
    cases hSame
    exact .inr ⟨p, q, Bindings.get?_eq_some_iff.mpr hp, Bindings.get?_eq_some_iff.mpr hq⟩
  · have hNone (bindings : Bindings Nat) (hKey : key ∉ bindings.entries.map (·.1)) :
        bindings.get? key = none :=
      Bindings.get?_eq_none_iff.mpr fun _ hEntry hEq => hKey (hEq ▸ List.mem_map_of_mem hEntry)
    exact .inl ⟨hNone _ hKey, hNone _ (hMem.not.mp hKey)⟩

/-- A request is routed to the same key, if to any. -/
theorem find?_cases (h : Alike d e) (request : Request) :
    (BindingIndex.find? d.index request = none ∧ BindingIndex.find? e.index request = none) ∨
      ∃ key p q, BindingIndex.find? d.index request = some p ∧ BindingIndex.find? e.index request = some q ∧
        (key, p) ∈ d.index.entries ∧ (key, q) ∈ e.index.entries := by
  change (request.prefixKeys.findSome? d.index.get? = none ∧ request.prefixKeys.findSome? e.index.get? = none) ∨
    ∃ key p q, request.prefixKeys.findSome? d.index.get? = some p ∧
      request.prefixKeys.findSome? e.index.get? = some q ∧
        (key, p) ∈ d.index.entries ∧ (key, q) ∈ e.index.entries
  induction request.prefixKeys with
  | nil => exact .inl ⟨rfl, rfl⟩
  | cons key keys ih =>
    rcases h.get?_cases key with ⟨hp, hq⟩ | ⟨p, q, hp, hq⟩
    · simpa only [List.findSome?_cons, hp, hq] using ih
    · refine .inr ⟨key, p, q, ?_, ?_, Bindings.get?_eq_some_iff.mp hp, Bindings.get?_eq_some_iff.mp hq⟩
      · simp [hp]
      · simp [hq]

theorem find?_eq (h : Alike d e) (request : Request) : d.find? request = e.find? request := by
  unfold find?
  rcases h.find?_cases request with ⟨hp, hq⟩ | ⟨key, p, q, hp, hq, hKey, hKey'⟩
  · rw [hp, hq]
    rfl
  · rw [hp, hq]
    exact h.handler key p q hKey hKey'

theorem receive_eq (h : Alike d e) (request : Request) : d.receive request = e.receive request := by
  funext state
  simp only [receive, inactive, h.server, h.active, h.find?_eq]

theorem dispatch_eq (h : Alike d e) (request : Request) : d.dispatch request = e.dispatch request := by
  funext state
  rw [Dispatcher.dispatch_eq, Dispatcher.dispatch_eq, h.receive_eq]

theorem shutdownAt (h : Alike d e) (hp : (key, p) ∈ d.index.entries) (hq : (key, q) ∈ e.index.entries)
    (state : σ) : Alike (d.shutdownAt p state).1 (e.shutdownAt q state).1 ∧
      (d.shutdownAt p state).2 = (e.shutdownAt q state).2 := by
  constructor
  · have hIndex := d.index_shutdownAt p state
    have hIndex' := e.index_shutdownAt q state
    refine ⟨?_, ?_, ?_, ?_, ?_, ?_⟩
    · rw [shutdownAt_fst, shutdownAt_fst]
      exact h.server
    · rw [active_shutdownAt, active_shutdownAt, h.active]
    · rw [hIndex, hIndex', h.keys]
    · rw [hIndex, hIndex']
      intro other p' q' hp' hq'
      rw [getElem?_shutdownAt h.left hp hp', getElem?_shutdownAt h.right hq hq', h.handler _ _ _ hp' hq']
    · unfold Separate
      rw [hIndex]
      exact h.left
    · unfold Separate
      rw [hIndex']
      exact h.right
  · unfold Dispatcher.shutdownAt
    rw [h.handler key p q hp hq]
    cases e.handlers[q]? <;> rfl

theorem shutdownEach (h : Alike d e) {entries others : List (String × Nat)}
    (hKeys : entries.map (·.1) = others.map (·.1)) (hd : ∀ entry ∈ entries, entry ∈ d.index.entries)
    (he : ∀ entry ∈ others, entry ∈ e.index.entries) (state : σ) :
    Alike (d.shutdownEach state (entries.map (·.2))).1 (e.shutdownEach state (others.map (·.2))).1 ∧
      (d.shutdownEach state (entries.map (·.2))).2 = (e.shutdownEach state (others.map (·.2))).2 := by
  induction entries generalizing d e others state with
  | nil =>
    obtain rfl : others = [] := List.map_eq_nil_iff.mp hKeys.symm
    exact ⟨h, rfl⟩
  | cons entry entries ih =>
    obtain ⟨other, others, rfl, hKey, hRest⟩ := List.map_eq_cons_iff.mp hKeys.symm
    obtain ⟨key, p⟩ := entry
    obtain ⟨_, q⟩ := other
    cases hKey
    obtain ⟨hp, hd⟩ := List.forall_mem_cons.mp hd
    obtain ⟨hq, he⟩ := List.forall_mem_cons.mp he
    obtain ⟨hAlike, hState⟩ := h.shutdownAt hp hq state
    simp only [List.map_cons, Dispatcher.shutdownEach, ← hState]
    refine ih hAlike hRest.symm ?_ ?_ _
    · rwa [index_shutdownAt]
    · rwa [index_shutdownAt]

theorem shutdown (h : Alike d e) (state : σ) :
    Alike (d.shutdown state).1 (e.shutdown state).1 ∧ (d.shutdown state).2 = (e.shutdown state).2 := by
  rw [shutdown_eq, shutdown_eq, h.active]
  split
  case isTrue =>
    have hClosed : Alike { d with active := false } { e with active := false } :=
      ⟨h.server, rfl, h.keys, h.handler, h.left, h.right⟩
    exact hClosed.shutdownEach h.keys (fun _ => id) (fun _ => id) state
  case isFalse => exact ⟨h, rfl⟩

end Alike
end Dispatcher

namespace Service
variable {σ : Type} {x y : Service Bindings σ}

/-- Services that have done the same for the same calls, and will. -/
structure Alike (x y : Service Bindings σ) : Prop where
  dispatcher : x.dispatcher.Alike y.dispatcher
  state : x.state = y.state
  promises : x.promises = y.promises

theorem Alike.step (h : Alike x y) (call : ServiceCall) : Alike (x.step call) (y.step call) := by
  obtain ⟨d, state, promises⟩ := x
  obtain ⟨e, _, _⟩ := y
  obtain ⟨hDispatcher, rfl, rfl⟩ := h
  cases call with
  | dispatch request =>
    refine ⟨hDispatcher, ?_, ?_⟩ <;> simp only [Service.step, hDispatcher.receive_eq]
  | await number =>
    simp only [Service.step]
    split <;> exact ⟨hDispatcher, rfl, rfl⟩
  | shutdownFound request =>
    rcases hDispatcher.find?_cases request with ⟨hp, hq⟩ | ⟨key, p, q, hp, hq, hKey, hKey'⟩
    · simp only [Service.step, hp, hq]
      exact ⟨hDispatcher, rfl, rfl⟩
    · obtain ⟨hAfter, hState⟩ := hDispatcher.shutdownAt hKey hKey' state
      simp only [Service.step, hp, hq]
      exact ⟨hAfter, hState, rfl⟩
  | shutdown =>
    obtain ⟨hAfter, hState⟩ := hDispatcher.shutdown state
    exact ⟨hAfter, hState, rfl⟩

theorem Alike.run (h : Alike x y) (calls : List ServiceCall) : Alike (x.run calls) (y.run calls) := by
  induction calls generalizing x y with
  | nil => exact h
  | cons call calls ih => exact ih (h.step call)

end Service
end Switchyard.Rest
