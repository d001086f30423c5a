import Switchyard.Proofs.Rest.Likeness

/-! # Building a dispatcher

A dispatcher is built in two passes over its handlers. The first registers them in the order in which they
are given and stops at a binding that is taken. The second associates them in the order of their keys and
stops at a handler that is not active. So the order in which they are given matters for nothing but the
handler that a refusal names.
-/
namespace Switchyard.Rest
set_option autoImplicit false

/-- If a value is met twice there is a first time that it has been met before. -/
theorem exists_first_repeat {α β : Type} {f : α → β} {items : List α} (h : ¬(items.map f).Nodup) :
    ∃ before x after, items = before ++ x :: after ∧ (before.map f).Nodup ∧ f x ∈ before.map f := by
  induction items using List.reverseRecOn with
  | nil => exact absurd List.nodup_nil h
  | append_singleton items x ih =>
    by_cases hItems : (items.map f).Nodup
    · refine ⟨items, x, [], rfl, hItems, ?_⟩
      by_contra hMem
      rw [List.map_append, List.map_singleton, List.nodup_append] at h
      exact h ⟨hItems, List.nodup_singleton _, fun y hy z hz hEq =>
        hMem (List.mem_singleton.mp hz ▸ hEq ▸ hy)⟩
    · obtain ⟨before, y, after, rfl, hBefore, hMem⟩ := ih hItems
      exact ⟨before, y, after ++ [x], by simp, hBefore, hMem⟩

namespace Bindings
variable {α : Type} {calls done : List (Request × α)} {call : Request × α}

theorem insert_ofCalls (hNew : call.1 ∉ calls.map Prod.fst) :
    (ofCalls calls).insert call.1 call.2 = .ok (ofCalls (calls ++ [call])) := by
  have hOffer : ofCalls (calls ++ [call]) = (ofCalls calls).offer call := by simp [ofCalls]
  cases hInsert : (ofCalls calls).insert call.1 call.2 with
  | ok extended => simp [hOffer, offer, hInsert]
  | error cause => exact absurd ((insert_ofCalls_eq_error_iff _ _ _ _).mp hInsert).1 hNew

theorem foldlM_insert_of_nodup (h : ((done ++ calls).map Prod.fst).Nodup) :
    calls.foldlM (fun (bindings : Bindings α) call => bindings.insert call.1 call.2) (ofCalls done) =
      (.ok (ofCalls (done ++ calls)) : Except Error (Bindings α)) := by
  induction calls generalizing done with
  | nil =>
    rw [List.append_nil]
    rfl
  | cons call calls ih =>
    have hSplit : done ++ call :: calls = done ++ [call] ++ calls := by simp
    have hNew : call.1 ∉ done.map Prod.fst := fun hMem => by
      rw [List.map_append, List.nodup_append] at h
      exact h.2.2 _ hMem _ List.mem_cons_self rfl
    rw [List.foldlM_cons, insert_ofCalls hNew, hSplit]
    exact ih (hSplit ▸ h)

theorem insertEntry_perm (key : String) (value : α) (entries : List (String × α)) :
    (insertEntry key value entries).Perm ((key, value) :: entries) := by
  induction entries with
  | nil => exact .refl _
  | cons first rest ih =>
    rw [insertEntry]
    split
    · exact .refl _
    · exact (ih.cons first).trans (.swap _ _ rest)

/-- What is registered when nothing is refused. -/
theorem entries_ofCalls_perm (h : (calls.map Prod.fst).Nodup) :
    (ofCalls calls).entries.Perm (calls.map fun call => (call.1.key, call.2)) := by
  induction calls using List.reverseRecOn with
  | nil => exact .refl _
  | append_singleton calls call ih =>
    rw [List.map_append, List.nodup_append] at h
    have hNew : call.1 ∉ calls.map Prod.fst := fun hMem => h.2.2 _ hMem _ List.mem_cons_self rfl
    have hInsert := insert_ofCalls hNew
    unfold insert at hInsert
    split at hInsert
    case isFalse => cases hInsert
    case isTrue =>
      rw [← Except.ok.inj hInsert, List.map_append]
      exact (insertEntry_perm _ _ _).trans (((ih h.1).cons _).trans (List.perm_append_singleton _ _).symm)

/-- What stands in front of an entry has a lesser key. -/
theorem mem_before_iff {bindings : Bindings α} {before after : List (String × α)} {entry other : String × α}
    (hEntries : bindings.entries = before ++ entry :: after) (hOther : other ∈ bindings.entries) :
    other ∈ before ↔ other.1 < entry.1 := by
  have hSorted := bindings.sorted
  rw [hEntries, List.pairwise_append, List.pairwise_cons] at hSorted
  obtain ⟨-, ⟨hAfter, -⟩, hBefore⟩ := hSorted
  rw [hEntries, List.mem_append, List.mem_cons] at hOther
  constructor
  · exact fun hMem => hBefore _ hMem _ List.mem_cons_self
  · intro hLt
    rcases hOther with hMem | rfl | hMem
    · exact hMem
    · exact absurd hLt (String.lt_irrefl _)
    · exact absurd (String.lt_trans hLt (hAfter _ hMem)) (String.lt_irrefl _)

end Bindings

namespace Dispatcher
variable {σ : Type} {server : ServerHandle σ} {handlers others first last : List (Handler σ)}
  {h : Handler σ} {key : String} {position : Nat} {before after positions : List Nat}

theorem calls_append (first last : List (Handler σ)) : calls (first ++ last) =
    calls first ++ (last.zipIdx first.length).map fun (handler, position) => (handler.binding, position) := by
  simp [calls, List.zipIdx_append]

theorem register_eq (handlers : List (Handler σ)) : register handlers =
    (calls handlers).foldlM (fun (bindings : Bindings Nat) call => bindings.insert call.1 call.2)
      (.ofCalls []) := by
  rw [calls, List.foldlM_map]
  rfl

theorem register_of_nodup (hNodup : (handlers.map (·.binding)).Nodup) :
    register handlers = .ok (Bindings.ofCalls (calls handlers)) := by
  rw [register_eq]
  exact Bindings.foldlM_insert_of_nodup (map_fst_calls handlers ▸ hNodup)

/-- The first handler whose binding is taken is refused. -/
theorem register_of_repeat (hFirst : (first.map (·.binding)).Nodup) (hMem : h.binding ∈ first.map (·.binding)) :
    register (first ++ h :: last) = (.error (.duplicateBinding h.binding.display) : Except Error (Bindings Nat)) := by
  have hTaken : (Bindings.ofCalls (calls first)).insert h.binding first.length =
      .error (.duplicateBinding h.binding.display) :=
    (Bindings.insert_ofCalls_eq_error_iff _ _ _ _).mpr ⟨map_fst_calls first ▸ hMem, rfl⟩
  have hDone : register first = .ok (Bindings.ofCalls (calls first)) := register_of_nodup hFirst
  rw [register_eq] at hDone
  rw [register_eq, calls_append, List.foldlM_append, hDone, List.zipIdx_cons, List.map_cons]
  change (List.foldlM _ (Bindings.ofCalls (calls first)) _ : Except Error (Bindings Nat)) = _
  rw [List.foldlM_cons, hTaken]
  rfl

/-- Every handler is registered with its position. -/
theorem entries_perm (hNodup : (handlers.map (·.binding)).Nodup) :
    (Bindings.ofCalls (calls handlers)).entries.Perm
      (handlers.zipIdx.map fun (h, position) => (h.binding.key, position)) := by
  have hPerm := Bindings.entries_ofCalls_perm (map_fst_calls handlers ▸ hNodup)
  rwa [calls, List.map_map] at hPerm

theorem mem_entries (hNodup : (handlers.map (·.binding)).Nodup) :
    (key, position) ∈ (Bindings.ofCalls (calls handlers)).entries ↔
      ∃ h, handlers[position]? = some h ∧ h.binding.key = key := by
  rw [(entries_perm hNodup).mem_iff]
  simp [List.mem_zipIdx_iff_getElem?]

/-- Associates the handlers at these positions one after the other, and tells what has become of all handlers
when it is over, also if it ends with a refusal. -/
def associateEach (server : ServerHandle σ) : List Nat → List (Handler σ) → Except Error Unit × List (Handler σ)
  | [], handlers => (.ok (), handlers)
  | position :: rest, handlers =>
    match handlers[position]? with
    | none => associateEach server rest handlers
    | some h =>
      match h.associate server with
      | .ok joined => associateEach server rest (handlers.set position joined)
      | .error cause => (.error cause, handlers)

/-- The construction of a dispatcher, and the handlers as it leaves them. -/
def build (server : ServerHandle σ) (handlers : List (Handler σ)) :
    Except Error (Dispatcher Bindings σ) × List (Handler σ) :=
  match (register handlers : Except Error (Bindings Nat)) with
  | .error cause => (.error cause, handlers)
  | .ok index =>
    let (answer, left) := associateEach server (BindingIndex.values index) handlers
    (answer.map fun _ => { server, handlers := left, index, active := true }, left)

theorem associate_eq (server : ServerHandle σ) (positions : List Nat) (handlers : List (Handler σ)) :
    associate server positions handlers = (associateEach server positions handlers).1.map
      fun _ => (associateEach server positions handlers).2 := by
  fun_induction associateEach server positions handlers with
  | case1 handlers => rfl
  | case2 handlers position rest hNone ih =>
    rw [associate, List.foldlM_cons, hNone]
    exact ih
  | case3 handlers position rest h hHandler joined hJoin ih =>
    rw [associate_cons hHandler, hJoin]
    exact ih
  | case4 handlers position rest h hHandler cause hRefused =>
    rw [associate_cons hHandler, hRefused]
    rfl

theorem build_fst (server : ServerHandle σ) (handlers : List (Handler σ)) :
    (build server handlers).1 = new server handlers := by
  unfold build new
  cases (register handlers : Except Error (Bindings Nat)) with
  | error cause => rfl
  | ok index =>
    simp only [bind, Except.bind, associate_eq]
    cases (associateEach server (BindingIndex.values index) handlers).1 <;> rfl

theorem associateEach_append (server : ServerHandle σ) (before after : List Nat)
    {handlers left : List (Handler σ)} (h : associateEach server before handlers = (.ok (), left)) :
    associateEach server (before ++ after) handlers = associateEach server after left := by
  fun_induction associateEach server before handlers with
  | case1 handlers =>
    cases h
    rfl
  | case2 handlers position rest hNone ih =>
    rw [List.cons_append, associateEach, hNone]
    exact ih h
  | case3 handlers position rest found hHandler joined hJoin ih =>
    simp only [List.cons_append, associateEach, hHandler, hJoin]
    exact ih h
  | case4 => cases h

/-- The handlers once those at some positions have been associated. -/
def joinAt (server : ServerHandle σ) (positions : List Nat) (handlers : List (Handler σ)) : List (Handler σ) :=
  handlers.mapIdx fun position h => if position ∈ positions then h.joined server else h

theorem getElem?_joinAt (server : ServerHandle σ) (positions : List Nat) (handlers : List (Handler σ))
    (position : Nat) : (joinAt server positions handlers)[position]? =
      handlers[position]?.map fun h => if position ∈ positions then h.joined server else h := by
  simp [joinAt]

theorem joinAt_nil (server : ServerHandle σ) (handlers : List (Handler σ)) :
    joinAt server [] handlers = handlers := by
  simp [joinAt, List.mapIdx_eq_iff]

theorem set_joinAt {h : Handler σ} (hHandler : handlers[position]? = some h) :
    (joinAt server positions handlers).set position (h.joined server) =
      joinAt server (positions ++ [position]) handlers := by
  refine List.ext_getElem? fun other => ?_
  rw [getElem?_joinAt, List.getElem?_set]
  by_cases hEq : position = other
  · subst hEq
    have hLt : position < (joinAt server positions handlers).length := by
      simpa [joinAt] using (List.getElem?_eq_some_iff.mp hHandler).1
    rw [if_pos rfl, if_pos hLt, hHandler]
    simp
  · simp [getElem?_joinAt, hEq, Ne.symm hEq]

end Dispatcher

/-- A handler that a dispatcher can take. -/
structure Handler.IsReady {σ : Type} (h : Handler σ) : Prop where
  active : h.active = true
  free : h.isAssociated = false

theorem Handler.IsReady.associate {σ : Type} {h : Handler σ} (hReady : h.IsReady) (server : ServerHandle σ) :
    h.associate server = .ok (h.joined server) := by
  simp [Handler.associate, hReady.active, hReady.free, Handler.joined]

theorem Handler.associate_of_inactive {σ : Type} {h : Handler σ} (hInactive : h.active = false)
    (server : ServerHandle σ) : h.associate server = .error h.inactive := by
  simp [Handler.associate, hInactive]

namespace Dispatcher
variable {σ : Type} {server : ServerHandle σ} {handlers others first last : List (Handler σ)}
  {h : Handler σ} {key : String} {position : Nat} {before after positions done : List Nat}

theorem associateEach_joinAt (hNodup : (done ++ positions).Nodup)
    (hReady : ∀ position ∈ positions, ∃ h, handlers[position]? = some h ∧ h.IsReady) :
    associateEach server positions (joinAt server done handlers) =
      (.ok (), joinAt server (done ++ positions) handlers) := by
  induction positions generalizing done with
  | nil => simp [associateEach]
  | cons position rest ih =>
    obtain ⟨⟨h, hHandler, hFirst⟩, hRest⟩ := List.forall_mem_cons.mp hReady
    have hSplit : done ++ position :: rest = done ++ [position] ++ rest := by simp
    have hNew : position ∉ done := fun hMem => by
      rw [List.nodup_append] at hNodup
      exact hNodup.2.2 _ hMem _ List.mem_cons_self rfl
    have hFound : (joinAt server done handlers)[position]? = some h := by
      rw [getElem?_joinAt, hHandler, Option.map_some, if_neg hNew]
    simp only [associateEach, hFound, hFirst.associate, set_joinAt hHandler]
    rw [hSplit] at hNodup ⊢
    exact ih hNodup hRest

theorem associateEach_of_ready (hNodup : positions.Nodup)
    (hReady : ∀ position ∈ positions, ∃ h, handlers[position]? = some h ∧ h.IsReady) :
    associateEach server positions handlers = (.ok (), joinAt server positions handlers) := by
  have hJoined : associateEach server positions (joinAt server [] handlers) =
      (.ok (), joinAt server ([] ++ positions) handlers) := associateEach_joinAt hNodup hReady
  rwa [joinAt_nil] at hJoined

/-- The first handler that is not active ends the association, and those before it stay associated. -/
theorem associateEach_of_inactive (hNodup : (before ++ position :: after).Nodup)
    (hReady : ∀ position ∈ before, ∃ h, handlers[position]? = some h ∧ h.IsReady)
    (hHandler : handlers[position]? = some h) (hInactive : h.active = false) :
    associateEach server (before ++ position :: after) handlers =
      (.error h.inactive, joinAt server before handlers) := by
  rw [List.nodup_append] at hNodup
  have hNew : position ∉ before := fun hMem => hNodup.2.2 _ hMem _ List.mem_cons_self rfl
  have hFound : (joinAt server before handlers)[position]? = some h := by
    rw [getElem?_joinAt, hHandler, Option.map_some, if_neg hNew]
  rw [associateEach_append server before _ (associateEach_of_ready hNodup.1 hReady)]
  simp only [associateEach, hFound, Handler.associate_of_inactive hInactive]

/-- The dispatcher of some handlers when nothing is in its way. -/
def ofHandlers (server : ServerHandle σ) (handlers : List (Handler σ)) : Dispatcher Bindings σ where
  server
  handlers := handlers.map (·.joined server)
  index := .ofCalls (calls handlers)
  active := true

section Distinct
variable (hNodup : (handlers.map (·.binding)).Nodup)
include hNodup

theorem keys_perm : ((Bindings.ofCalls (calls handlers)).entries.map (·.1)).Perm
    (handlers.map (·.binding.key)) := by
  have hEntries := (entries_perm hNodup).map Prod.fst
  have hKeys : (handlers.zipIdx.map fun (h, position) => (h.binding.key, position)).map Prod.fst =
      (handlers.zipIdx.map Prod.fst).map (·.binding.key) := by
    rw [List.map_map, List.map_map]
    rfl
  rwa [hKeys, List.zipIdx_map_fst] at hEntries

theorem nodup_values : (BindingIndex.values (Bindings.ofCalls (calls handlers))).Nodup := by
  have hEntries := (entries_perm hNodup).map Prod.snd
  have hPositions : (handlers.zipIdx.map fun (h, position) => (h.binding.key, position)).map Prod.snd =
      List.range' 0 handlers.length := by
    rw [List.map_map, ← List.zipIdx_map_snd 0 handlers]
    rfl
  rw [hPositions] at hEntries
  exact hEntries.nodup_iff.mpr List.nodup_range'

theorem joinAt_values : joinAt server (BindingIndex.values (Bindings.ofCalls (calls handlers))) handlers =
    handlers.map (·.joined server) := by
  refine List.ext_getElem? fun position => ?_
  rw [getElem?_joinAt, List.getElem?_map]
  cases hHandler : handlers[position]? with
  | none => rfl
  | some h =>
    have hValue := mem_values (map_fst_calls handlers ▸ hNodup) hHandler
    rw [Option.map_some, if_pos hValue, Option.map_some]

theorem exists_of_mem_values (hMem : position ∈ BindingIndex.values (Bindings.ofCalls (calls handlers))) :
    ∃ h, handlers[position]? = some h ∧ h ∈ handlers := by
  obtain ⟨⟨key, _⟩, hEntry, rfl⟩ := List.mem_map.mp hMem
  obtain ⟨h, hHandler, -⟩ := (mem_entries hNodup).mp hEntry
  exact ⟨h, hHandler, List.mem_of_getElem? hHandler⟩

theorem build_of_ready (hReady : ∀ h ∈ handlers, h.IsReady) :
    build server handlers = (.ok (ofHandlers server handlers), handlers.map (·.joined server)) := by
  have hValues : ∀ position ∈ BindingIndex.values (Bindings.ofCalls (calls handlers)),
      ∃ h, handlers[position]? = some h ∧ h.IsReady := by
    intro position hPosition
    obtain ⟨h, hHandler, hMem⟩ := exists_of_mem_values hNodup hPosition
    exact ⟨h, hHandler, hReady h hMem⟩
  simp only [build, register_of_nodup hNodup, associateEach_of_ready (nodup_values hNodup) hValues,
    joinAt_values hNodup]
  rfl

/-- The handlers in front of one in the order of the keys. -/
theorem mem_front_iff {before after : List (String × Nat)} {other : Handler σ} {place : Nat}
    (hEntries : (Bindings.ofCalls (calls handlers)).entries = before ++ (key, position) :: after)
    (hOther : handlers[place]? = some other) : place ∈ before.map (·.2) ↔ other.binding.key < key := by
  rw [← Bindings.mem_before_iff hEntries ((mem_entries hNodup).mpr ⟨other, hOther, rfl⟩)]
  constructor
  · intro hPlace
    obtain ⟨⟨_, _⟩, hFound, rfl⟩ := List.mem_map.mp hPlace
    obtain ⟨found, hHandler, rfl⟩ := (mem_entries hNodup).mp (hEntries ▸ List.mem_append_left _ hFound)
    cases hHandler.symm.trans hOther
    exact hFound
  · exact fun hFound => List.mem_map.mpr ⟨_, hFound, rfl⟩

/-- Of the handlers that are not active the one with the least key is met first. -/
theorem build_of_inactive (hFree : ∀ h ∈ handlers, h.isAssociated = false) (hMem : h ∈ handlers)
    (hInactive : h.active = false)
    (hLeast : ∀ other ∈ handlers, other.active = false → h.binding.key ≤ other.binding.key) :
    build server handlers = (.error h.inactive, handlers.map fun other =>
      if other.binding.key < h.binding.key then other.joined server else other) := by
  obtain ⟨position, hHandler⟩ := List.mem_iff_getElem?.mp hMem
  obtain ⟨before, after, hEntries⟩ := List.append_of_mem ((mem_entries hNodup).mpr ⟨h, hHandler, rfl⟩)
  have hValues : BindingIndex.values (Bindings.ofCalls (calls handlers)) =
      before.map (·.2) ++ position :: after.map (·.2) := by
    change (Bindings.ofCalls (calls handlers)).entries.map (·.2) = _
    rw [hEntries, List.map_append, List.map_cons]
  have hPositions := hValues ▸ nodup_values hNodup
  have hReady : ∀ place ∈ before.map (·.2), ∃ other, handlers[place]? = some other ∧ other.IsReady := by
    intro place hPlace
    obtain ⟨other, hOther, hOtherMem⟩ :=
      exists_of_mem_values hNodup (hValues ▸ List.mem_append_left _ hPlace)
    have hLt := (mem_front_iff hNodup hEntries hOther).mp hPlace
    refine ⟨other, hOther, Bool.of_not_eq_false fun hOff => ?_, hFree other hOtherMem⟩
    exact String.not_lt.mpr (hLeast other hOtherMem hOff) hLt
  have hJoined : joinAt server (before.map (·.2)) handlers = handlers.map fun other =>
      if other.binding.key < h.binding.key then other.joined server else other := by
    refine List.ext_getElem? fun place => ?_
    rw [getElem?_joinAt, List.getElem?_map]
    cases hOther : handlers[place]? with
    | none => rfl
    | some other => simp only [Option.map_some, mem_front_iff hNodup hEntries hOther]
  simp only [build, register_of_nodup hNodup, hValues,
    associateEach_of_inactive hPositions hReady hHandler hInactive, hJoined]
  rfl

theorem size_ofHandlers : (ofHandlers server handlers).size = handlers.length := by
  change (Bindings.ofCalls (calls handlers)).entries.length = _
  simp [(entries_perm hNodup).length_eq]

theorem new_of_perm (hReady : ∀ h ∈ handlers, h.IsReady) (hPerm : others.Perm handlers) :
    new server others = .ok (ofHandlers server others) := by
  have hNodup' : (others.map (·.binding)).Nodup := (hPerm.map _).nodup_iff.mpr hNodup
  rw [← build_fst, build_of_ready hNodup' fun h hMem => hReady h (hPerm.mem_iff.mp hMem)]

/-- The order in which handlers are given does not matter for the dispatcher. -/
theorem alike_of_perm (hPerm : others.Perm handlers) :
    (ofHandlers server handlers).Alike (ofHandlers server others) := by
  have hNodup' : (others.map (·.binding)).Nodup := (hPerm.map _).nodup_iff.mpr hNodup
  have hSorted (bindings : Bindings Nat) : (bindings.entries.map (·.1)).Pairwise (· < ·) :=
    List.pairwise_map.mpr bindings.sorted
  have hSeparate (items : List (Handler σ)) (hItems : (items.map (·.binding)).Nodup) :
      (ofHandlers server items).Separate := by
    intro key other position hKey hOther
    obtain ⟨h, hHandler, rfl⟩ := (mem_entries hItems).mp hKey
    obtain ⟨h', hHandler', rfl⟩ := (mem_entries hItems).mp hOther
    cases hHandler.symm.trans hHandler'
    rfl
  refine ⟨rfl, rfl, ?_, fun key p q hp hq => ?_, hSeparate handlers hNodup, hSeparate others hNodup'⟩
  · refine List.Perm.eq_of_pairwise (fun a b _ _ hab hba => ?_) (hSorted _) (hSorted _) ?_
    · exact absurd (String.lt_trans hab hba) (String.lt_irrefl a)
    · exact (keys_perm hNodup).trans ((hPerm.symm.map _).trans (keys_perm hNodup').symm)
  · obtain ⟨h, hHandler, rfl⟩ := (mem_entries hNodup).mp hp
    obtain ⟨other, hOther, hKey⟩ := (mem_entries hNodup').mp hq
    obtain rfl : other = h := List.inj_on_of_nodup_map hNodup
      (hPerm.mem_iff.mp (List.mem_of_getElem? hOther)) (List.mem_of_getElem? hHandler)
      (Request.key_injective hKey)
    simp [ofHandlers, hHandler, hOther]

end Distinct

/-- A handler whose binding is taken ends the construction before any handler is associated. -/
theorem build_of_repeat (hFirst : (first.map (·.binding)).Nodup) (hMem : h.binding ∈ first.map (·.binding)) :
    build server (first ++ h :: last) = (.error (.duplicateBinding h.binding.display), first ++ h :: last) := by
  simp only [build, register_of_repeat hFirst hMem]

theorem exists_least_inactive (h : ∃ h ∈ handlers, h.active = false) :
    ∃ h ∈ handlers, h.active = false ∧
      ∀ other ∈ handlers, other.active = false → h.binding.key ≤ other.binding.key := by
  obtain ⟨first, hFirst, hOff⟩ := h
  have hMem {other : Handler σ} : other ∈ handlers.filter (!·.active) ↔
      other ∈ handlers ∧ other.active = false := by simp
  cases hLeast : (handlers.filter (!·.active)).argmin (·.binding.key) with
  | none => exact absurd (hMem.mpr ⟨hFirst, hOff⟩) (by simp [List.argmin_eq_none.mp hLeast])
  | some least =>
    obtain ⟨hLeastMem, hLeastOff⟩ := hMem.mp (List.argmin_mem hLeast)
    refine ⟨least, hLeastMem, hLeastOff, fun other hOther hOtherOff => ?_⟩
    exact List.le_of_mem_argmin (f := fun h : Handler σ => h.binding.key) (hMem.mpr ⟨hOther, hOtherOff⟩) hLeast

theorem nodup_keys_iff (handlers : List (Handler σ)) :
    (handlers.map (·.binding.key)).Nodup ↔ (handlers.map (·.binding)).Nodup := by
  have hKeys : handlers.map (·.binding.key) = (handlers.map (·.binding)).map Request.key := by
    rw [List.map_map]
    rfl
  rw [hKeys, List.nodup_map_iff fun _ _ => Request.key_injective]

/-- All that a construction can come to. -/
theorem build_cases (server : ServerHandle σ) (hFree : ∀ h ∈ handlers, h.isAssociated = false) :
    ((handlers.map (·.binding)).Nodup ∧ (∀ h ∈ handlers, h.active = true) ∧
      build server handlers = (.ok (ofHandlers server handlers), handlers.map (·.joined server))) ∨
    (¬(handlers.map (·.binding)).Nodup ∧ ∃ first h last, handlers = first ++ h :: last ∧
      (first.map (·.binding)).Nodup ∧ h.binding ∈ first.map (·.binding) ∧
      build server handlers = (.error (.duplicateBinding h.binding.display), handlers)) ∨
    ((handlers.map (·.binding)).Nodup ∧ ∃ h ∈ handlers, h.active = false ∧
      (∀ other ∈ handlers, other.active = false → h.binding.key ≤ other.binding.key) ∧
      build server handlers = (.error h.inactive, handlers.map fun other =>
        if other.binding.key < h.binding.key then other.joined server else other)) := by
  by_cases hNodup : (handlers.map (·.binding)).Nodup
  · by_cases hActive : ∀ h ∈ handlers, h.active = true
    · exact .inl ⟨hNodup, hActive, build_of_ready hNodup fun h hMem => ⟨hActive h hMem, hFree h hMem⟩⟩
    · obtain ⟨h, hMem, hInactive, hLeast⟩ := exists_least_inactive (by simpa using hActive)
      exact .inr (.inr ⟨hNodup, h, hMem, hInactive, hLeast,
        build_of_inactive hNodup hFree hMem hInactive hLeast⟩)
  · obtain ⟨first, h, last, rfl, hFirst, hMem⟩ := exists_first_repeat hNodup
    exact .inr (.inl ⟨hNodup, first, h, last, rfl, hFirst, hMem, build_of_repeat hFirst hMem⟩)

end Dispatcher

/-- Two services that have come to the same and answer alike. -/
structure Service.Agrees {σ : Type} (first second : Service Bindings σ) : Prop where
  state : first.state = second.state
  promises : first.promises = second.promises
  find? : ∀ request, first.dispatcher.find? request = second.dispatcher.find? request
  dispatch : ∀ request, first.dispatcher.dispatch request = second.dispatcher.dispatch request
  shutdown : ∀ later, (first.dispatcher.shutdown later).2 = (second.dispatcher.shutdown later).2

theorem Service.Alike.agrees {σ : Type} {first second : Service Bindings σ} (h : first.Alike second) :
    first.Agrees second := by
  obtain ⟨hDispatcher, hState, hPromises⟩ := h
  constructor
  case state => exact hState
  case promises => exact hPromises
  case find? => exact hDispatcher.find?_eq
  case dispatch => exact hDispatcher.dispatch_eq
  case shutdown =>
    intro later
    exact (hDispatcher.shutdown later).2

namespace Dispatcher

/-- A dispatcher that has been built from some handlers. -/
structure Takes {σ : Type} (server : ServerHandle σ) (handlers : List (Handler σ))
    (d : Dispatcher Bindings σ) : Prop where
  left : (build server handlers).2 = d.handlers
  handlers_eq : d.handlers = handlers.map (·.joined server)
  associated : ∀ h ∈ d.handlers, h.server = .ok server
  size_eq : d.size = handlers.length
  /-- It makes no difference in which order the handlers are given. -/
  reordered : ∀ others, others.Perm handlers → ∃ e : Dispatcher Bindings σ, new server others = .ok e ∧
    e.size = d.size ∧
      ∀ state calls, ((Service.start d state).run calls).Agrees ((Service.start e state).run calls)

/-- What the construction of a dispatcher comes to, and what it leaves of the handlers. -/
structure Constructs {σ : Type} (server : ServerHandle σ) (handlers : List (Handler σ)) : Prop where
  build_eq : (build server handlers).1 = new server handlers
  succeeds_iff : (∃ d : Dispatcher Bindings σ, new server handlers = .ok d) ↔
    (handlers.map (·.binding.key)).Nodup ∧ ∀ h ∈ handlers, h.active = true
  /-- The first handler whose binding is taken is refused, before any handler is associated. -/
  duplicate : ¬(handlers.map (·.binding.key)).Nodup →
    (build server handlers).2 = handlers ∧
    ∃ first h last, handlers = first ++ h :: last ∧ (first.map (·.binding.key)).Nodup ∧
      h.binding.key ∈ first.map (·.binding.key) ∧
      (new server handlers : Except Error (Dispatcher Bindings σ)) =
        .error (.duplicateBinding h.binding.display)
  /-- The handlers in front of the first inactive one have been associated by then. -/
  inactive : (handlers.map (·.binding.key)).Nodup → (∃ h ∈ handlers, h.active = false) →
    ∃ h ∈ handlers, h.active = false ∧
      (∀ other ∈ handlers, other.active = false → h.binding.key ≤ other.binding.key) ∧
      (new server handlers : Except Error (Dispatcher Bindings σ)) = .error h.inactive ∧
      (build server handlers).2 = handlers.map fun other =>
        if other.binding.key < h.binding.key then other.joined server else other
  takes : ∀ d : Dispatcher Bindings σ, new server handlers = .ok d → Takes server handlers d

section Constructs
variable {σ : Type} {server : ServerHandle σ} {handlers : List (Handler σ)}

theorem takes_ofHandlers (hNodup : (handlers.map (·.binding)).Nodup) (hReady : ∀ h ∈ handlers, h.IsReady) :
    Takes server handlers (ofHandlers server handlers) where
  left := by rw [build_of_ready hNodup hReady]; rfl
  handlers_eq := rfl
  associated h hMem := by
    obtain ⟨_, -, rfl⟩ := List.mem_map.mp hMem
    rfl
  size_eq := size_ofHandlers hNodup
  reordered others hPerm := by
    have hAlike : (ofHandlers server handlers).Alike (ofHandlers server others) := alike_of_perm hNodup hPerm
    refine ⟨_, new_of_perm hNodup hReady hPerm, hAlike.size_eq.symm, fun state calls => ?_⟩
    have hStart : (Service.start (ofHandlers server handlers) state).Alike
        (Service.start (ofHandlers server others) state) := ⟨hAlike, rfl, rfl⟩
    exact (hStart.run calls).agrees

theorem constructs (server : ServerHandle σ) (hFree : ∀ h ∈ handlers, h.isAssociated = false) :
    Constructs server handlers := by
  have hNew := build_fst server handlers
  have hKeys := nodup_keys_iff handlers
  rcases build_cases server hFree with ⟨hNodup, hActive, hBuild⟩ |
    ⟨hRepeat, first, h, last, hHandlers, hFirst, hMem, hBuild⟩ |
    ⟨hNodup, h, hMem, hInactive, hLeast, hBuild⟩
  · have hBuilt : new server handlers = .ok (ofHandlers server handlers) := by rw [← hNew, hBuild]
    constructor
    case build_eq => exact hNew
    case succeeds_iff => exact iff_of_true ⟨_, hBuilt⟩ ⟨hKeys.mpr hNodup, hActive⟩
    case duplicate => exact absurd (hKeys.mpr hNodup)
    case inactive =>
      rintro - ⟨h, hMem, hInactive⟩
      cases (hActive h hMem).symm.trans hInactive
    case takes =>
      intro d hOther
      cases hBuilt.symm.trans hOther
      exact takes_ofHandlers hNodup fun h hMem => ⟨hActive h hMem, hFree h hMem⟩
  · have hRefused : (new server handlers : Except Error (Dispatcher Bindings σ)) =
        .error (.duplicateBinding h.binding.display) := by rw [← hNew, hBuild]
    have hKey : h.binding.key ∈ first.map (·.binding.key) := by
      obtain ⟨other, hOther, hEq⟩ := List.mem_map.mp hMem
      exact List.mem_map.mpr ⟨other, hOther, congrArg Request.key hEq⟩
    constructor
    case build_eq => exact hNew
    case succeeds_iff =>
      refine iff_of_false ?_ fun hReady => hRepeat (hKeys.mp hReady.1)
      rintro ⟨d, hBuilt⟩
      cases hRefused.symm.trans hBuilt
    case duplicate =>
      intro _
      exact ⟨by rw [hBuild], first, h, last, hHandlers, (nodup_keys_iff first).mpr hFirst, hKey, hRefused⟩
    case inactive =>
      intro hNodup
      exact absurd (hKeys.mp hNodup) hRepeat
    case takes =>
      intro d hBuilt
      cases hRefused.symm.trans hBuilt
  · have hRefused : (new server handlers : Except Error (Dispatcher Bindings σ)) = .error h.inactive := by
      rw [← hNew, hBuild]
    constructor
    case build_eq => exact hNew
    case succeeds_iff =>
      refine iff_of_false ?_ fun hReady => ?_
      · rintro ⟨d, hBuilt⟩
        cases hRefused.symm.trans hBuilt
      · cases (hReady.2 h hMem).symm.trans hInactive
    case duplicate => exact absurd (hKeys.mpr hNodup)
    case inactive =>
      intro _ _
      exact ⟨h, hMem, hInactive, hLeast, hRefused, by rw [hBuild]⟩
    case takes =>
      intro d hBuilt
      cases hRefused.symm.trans hBuilt

end Constructs

end Dispatcher

/-- A dispatcher takes active handlers of distinct bindings, in whatever order. Otherwise a binding that is
taken counts first, while nothing is associated, and then the inactive handler of the least key. -/
theorem dispatchers_take_distinct_active_handlers {σ : Type} (server : ServerHandle σ)
    (handlers : List (Handler σ)) (hFree : ∀ h ∈ handlers, h.isAssociated = false) :
    Dispatcher.Constructs server handlers :=
  Dispatcher.constructs server hFree

namespace Sample

def taken : List (Handler Nat) := [(handler ⟨.get, [a]⟩).stopped, handler ⟨.get, [a]⟩]

def partlyStopped : List (Handler Nat) :=
  [(handler ⟨.get, [a]⟩).stopped, (handler ⟨.get, [slashed]⟩).stopped, handler ⟨.get, []⟩]

end Sample

theorem dispatchers_take_distinct_active_handlers_sample :
    (Dispatcher.new Sample.server Sample.taken : Except Error (Dispatcher Bindings Nat)) =
      .error (.duplicateBinding "GET /a/") ∧
    (Dispatcher.build Sample.server Sample.taken).2 = Sample.taken ∧
    (Dispatcher.new Sample.server Sample.partlyStopped : Except Error (Dispatcher Bindings Nat)) =
      .error (.inactive "handler GET /a/b/") ∧
    (Dispatcher.build Sample.server Sample.partlyStopped).2 =
      [(Sample.handler ⟨.get, [Sample.a]⟩).stopped, (Sample.handler ⟨.get, [Sample.slashed]⟩).stopped,
        (Sample.handler ⟨.get, []⟩).joined Sample.server] ∧
    ∃ d e : Dispatcher Bindings Nat, Dispatcher.new Sample.server Sample.handlers = .ok d ∧
      Dispatcher.new Sample.server Sample.handlers.reverse = .ok e ∧ d.size = 4 ∧
      ((Service.start d 0).run [.dispatch Sample.request, .await 0]).state =
        ((Service.start e 0).run [.dispatch Sample.request, .await 0]).state := by
  have hTaken := dispatchers_take_distinct_active_handlers Sample.server Sample.taken (by decide)
  have hStopped := dispatchers_take_distinct_active_handlers Sample.server Sample.partlyStopped (by decide)
  have hDistinct := dispatchers_take_distinct_active_handlers Sample.server Sample.handlers (by decide)
  obtain ⟨hLeft, first, h, last, hHandlers, -, -, hRefused⟩ := hTaken.duplicate (by decide +kernel)
  have hBinding : ∀ h ∈ Sample.taken, h.binding = ⟨.get, [Sample.a]⟩ := by decide
  rw [hBinding h (hHandlers ▸ List.mem_append_right first List.mem_cons_self)] at hRefused
  obtain ⟨h', hMem, hInactive, hLeast, hNew, hAfter⟩ :=
    hStopped.inactive (by decide +kernel) ⟨_, List.mem_cons_self, rfl⟩
  have hSlashed : h' = (Sample.handler ⟨.get, [Sample.slashed]⟩).stopped := by
    have hLe := hLeast _ (List.mem_cons_of_mem _ List.mem_cons_self) rfl
    simp only [Sample.partlyStopped, List.mem_cons, List.not_mem_nil, or_false] at hMem
    rcases hMem with rfl | rfl | rfl
    · exact absurd hLe (by decide +kernel)
    · rfl
    · cases hInactive
  subst hSlashed
  obtain ⟨d, hOpen⟩ := hDistinct.succeeds_iff.mpr ⟨by decide +kernel, by decide⟩
  have hTakes := hDistinct.takes d hOpen
  obtain ⟨e, hReversed, -, hSame⟩ := hTakes.reordered _ (List.reverse_perm _)
  exact ⟨hRefused, hLeft, hNew, hAfter, d, e, hOpen, hReversed, hTakes.size_eq, (hSame 0 _).state⟩

end Switchyard.Rest
