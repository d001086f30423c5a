import Switchyard.Client.Pool

/-! # No object is lost

Beside a pool runs a ledger of the objects that were created for it, those that borrowers hold, those
that were destroyed, and the creations under way. Each step of the pool is entered with what the pool
has asked of the maker of the objects. Whether an object is valid may change from step to step.
-/
namespace Switchyard.Client
set_option autoImplicit false

namespace PoolCall
variable {α : Type}

def created? : PoolCall α → Option α
  | create created => created
  | validate .. | destroy _ => none

def destroyed? : PoolCall α → Option α
  | destroy object => some object
  | create _ | validate .. => none

def createdIn (calls : List (PoolCall α)) : List α := calls.filterMap created?

def destroyedIn (calls : List (PoolCall α)) : List α := calls.filterMap destroyed?

@[simp] theorem createdIn_nil : createdIn ([] : List (PoolCall α)) = [] := rfl

@[simp] theorem createdIn_cons (call : PoolCall α) (calls : List (PoolCall α)) :
    createdIn (call :: calls) = call.created?.toList ++ createdIn calls := by
  unfold createdIn
  cases hCreated : call.created? <;> simp [hCreated]

@[simp] theorem createdIn_append (first second : List (PoolCall α)) :
    createdIn (first ++ second) = createdIn first ++ createdIn second := List.filterMap_append

@[simp] theorem destroyedIn_nil : destroyedIn ([] : List (PoolCall α)) = [] := rfl

@[simp] theorem destroyedIn_cons (call : PoolCall α) (calls : List (PoolCall α)) :
    destroyedIn (call :: calls) = call.destroyed?.toList ++ destroyedIn calls := by
  unfold destroyedIn
  cases hDestroyed : call.destroyed? <;> simp [hDestroyed]

@[simp] theorem destroyedIn_append (first second : List (PoolCall α)) :
    destroyedIn (first ++ second) = destroyedIn first ++ destroyedIn second := List.filterMap_append

end PoolCall

structure Ledger (α : Type) where
  pool : Pool α
  created : List α
  held : List α
  destroyed : List α
  creating : Nat

/-- The sections of the pool's operations in which nothing else can happen. -/
inductive PoolEvent (α : Type) where
  | borrow (valid : α → Bool)
  | create (created : Except Error α) (valid : α → Bool)
  | abandon
  | giveBack (object : α) (valid : α → Bool) (now : Nat)
  | invalidate (object : α)
  | evict (valid : α → Bool) (now : Nat)
  | close

namespace Pool
open PoolCall
variable {α : Type}

@[simp] theorem objects_append (first second : List (Idle α)) :
    objects (first ++ second) = objects first ++ objects second := List.map_append

@[simp] theorem createdIn_checked (valid : α → Bool) (test : Bool) (object : α) :
    createdIn (checked valid test object) = [] := by
  cases test <;> rfl

@[simp] theorem destroyedIn_checked (valid : α → Bool) (test : Bool) (object : α) :
    destroyedIn (checked valid test object) = [] := by
  cases test <;> rfl

@[simp] theorem createdIn_flatMap_checked (valid : α → Bool) (test : Bool) (idle : List (Idle α)) :
    createdIn (idle.flatMap fun entry => checked valid test entry.object) = [] := by
  induction idle with
  | nil => rfl
  | cons entry idle ih => rw [List.flatMap_cons, createdIn_append, createdIn_checked, ih, List.nil_append]

@[simp] theorem destroyedIn_flatMap_checked (valid : α → Bool) (test : Bool) (idle : List (Idle α)) :
    destroyedIn (idle.flatMap fun entry => checked valid test entry.object) = [] := by
  induction idle with
  | nil => rfl
  | cons entry idle ih => rw [List.flatMap_cons, destroyedIn_append, destroyedIn_checked, ih, List.nil_append]

@[simp] theorem createdIn_map_destroy (objects : List α) : createdIn (objects.map .destroy) = [] := by
  induction objects with
  | nil => rfl
  | cons object objects ih => simpa [created?] using ih

@[simp] theorem destroyedIn_map_destroy (objects : List α) :
    destroyedIn (objects.map .destroy) = objects := by
  induction objects with
  | nil => rfl
  | cons object objects ih => simpa [destroyed?] using ih

/-- A sweep leaves every idle object where it is or takes it out. -/
theorem takeDoomed_perm (policy : PoolPolicy) (valid : α → Bool) (now : Nat) (pool : Pool α) :
    let swept := pool.takeDoomed policy valid now
    (objects swept.2.idle ++ swept.1).Perm (objects pool.idle) := by
  let oldest := pool.idle.drop pool.unswept
  let doomed := oldest.filter (isDoomed policy valid now)
  let kept := oldest.filter (!isDoomed policy valid now ·)
  have hParted : (objects doomed ++ objects kept).Perm (objects oldest) := by
    rw [← objects_append]
    exact (List.filter_append_perm _ _).map _
  have hSplit : objects (pool.idle.take pool.unswept) ++ objects oldest = objects pool.idle := by
    rw [← objects_append, List.take_append_drop]
  change (objects (pool.idle.take pool.unswept ++ kept) ++ objects doomed.reverse).Perm _
  rw [objects_append, List.append_assoc, ← hSplit]
  refine .append_left _ ?_
  calc
    List.Perm (objects kept ++ objects doomed.reverse) (objects kept ++ objects doomed) :=
      .append_left _ ((List.reverse_perm doomed).map _)
    List.Perm _ (objects doomed ++ objects kept) := List.perm_append_comm
    List.Perm _ (objects oldest) := hParted

variable [DecidableEq α] {policy : PoolPolicy} {valid : α → Bool}

/-- Every idle object is found, left or destroyed, and nothing is left if none is found. -/
theorem takeIdle_spec {idle rest : List (Idle α)} {found : Option α} {calls : List (PoolCall α)}
    (h : takeIdle policy valid idle = (found, rest, calls)) :
    createdIn calls = [] ∧
      (∀ o, (objects idle).count o =
        found.toList.count o + (objects rest).count o + (destroyedIn calls).count o) ∧
      found.toList.length + rest.length ≤ idle.length ∧ (found = none → rest = []) := by
  induction idle generalizing found rest calls with
  | nil =>
    cases h
    simp [objects]
  | cons entry idle ih =>
    unfold takeIdle at h
    simp only at h
    split at h
    case isTrue =>
      cases h
      refine ⟨createdIn_checked _ _ _, fun o => ?_, by simp [Nat.add_comm], nofun⟩
      simp only [objects, List.map_cons, List.count_cons, Option.toList_some, List.count_nil,
        destroyedIn_checked]
      omega
    case isFalse =>
      cases hTaken : takeIdle policy valid idle with
      | mk more taken =>
        obtain ⟨left, calls⟩ := taken
        rw [hTaken] at h
        cases h
        obtain ⟨hCreated, hCount, hLength, hEmpty⟩ := ih hTaken
        refine ⟨by simp [created?, hCreated], fun o => ?_, ?_, hEmpty⟩
        · have hCount := hCount o
          simp only [objects, List.map_cons, List.count_cons, destroyedIn_append, destroyedIn_checked,
            List.nil_append, destroyedIn_cons, destroyed?, Option.toList_some, List.cons_append] at hCount ⊢
          omega
        · simp only [List.length_cons]
          omega

/-- Every idle object is left or destroyed. -/
theorem evict_spec (policy : PoolPolicy) (valid : α → Bool) (now : Nat) (pool : Pool α) :
    let step := pool.evict policy valid now
    createdIn step.calls = [] ∧
      (∀ o, (objects pool.idle).count o =
        (objects step.pool.idle).count o + (destroyedIn step.calls).count o) ∧
      step.pool.idle.length ≤ pool.idle.length := by
  have hPerm := takeDoomed_perm policy valid now pool
  refine ⟨?_, fun o => ?_, ?_⟩
  · simp [evict]
  · simpa [evict] using (hPerm.count_eq o).symm
  · have hLength := hPerm.length_eq
    simp only [List.length_append, objects, List.length_map] at hLength
    exact Nat.le_of_add_right_le (Nat.le_of_eq hLength)

end Pool

namespace Ledger
open PoolCall
variable {α : Type}

def start : Ledger α := { pool := .empty, created := [], held := [], destroyed := [], creating := 0 }

/-- Enters a step of the pool, after which these objects are held and so many creations under way. -/
def enter {ρ : Type} (l : Ledger α) (step : PoolStep α ρ) (held : List α) (creating : Nat) : Ledger α :=
  { pool := step.pool
    created := l.created ++ createdIn step.calls
    destroyed := l.destroyed ++ destroyedIn step.calls
    held, creating }

variable [DecidableEq α]

def step (policy : PoolPolicy) (l : Ledger α) : PoolEvent α → Ledger α
  | .borrow valid =>
    let step := l.pool.beginBorrow policy valid
    match step.value with
    | .done (.ok object) => l.enter step (object :: l.held) l.creating
    | .done (.error _) => l.enter step l.held l.creating
    | .creating => l.enter step l.held (l.creating + 1)
  | .create created valid =>
    let step := l.pool.finishCreate policy valid created
    match step.value with
    | .ok object => l.enter step (object :: l.held) (l.creating - 1)
    | .error _ => l.enter step l.held (l.creating - 1)
  | .abandon => { l with pool := l.pool.abandonCreate, creating := l.creating - 1 }
  | .giveBack object valid now =>
    l.enter (l.pool.giveBack policy valid now object) (l.held.erase object) l.creating
  | .invalidate object => l.enter (l.pool.invalidate object) (l.held.erase object) l.creating
  | .evict valid now => l.enter (l.pool.evict policy valid now) l.held l.creating
  | .close => l.enter l.pool.close l.held l.creating

def run (policy : PoolPolicy) (l : Ledger α) (events : List (PoolEvent α)) : Ledger α :=
  events.foldl (step policy) l

/-- What can happen: only creations under way come to an end, every object created is a new one, and
only objects that are held come back. -/
def Permits (l : Ledger α) : PoolEvent α → Prop
  | .create (.ok object) _ => 0 < l.creating ∧ object ∉ l.created
  | .create (.error _) _ | .abandon => 0 < l.creating
  | .giveBack object _ _ | .invalidate object => object ∈ l.held
  | .borrow _ | .evict _ _ | .close => True

instance decidablePermits (l : Ledger α) : (event : PoolEvent α) → Decidable (l.Permits event)
  | .create (.ok object) _ => inferInstanceAs (Decidable (0 < l.creating ∧ object ∉ l.created))
  | .create (.error _) _ | .abandon => inferInstanceAs (Decidable (0 < l.creating))
  | .giveBack object _ _ | .invalidate object => inferInstanceAs (Decidable (object ∈ l.held))
  | .borrow _ | .evict _ _ | .close => .isTrue trivial

def Permitted (policy : PoolPolicy) : Ledger α → List (PoolEvent α) → Prop
  | _, [] => True
  | l, event :: events => l.Permits event ∧ (l.step policy event).Permitted policy events

instance decidablePermitted (policy : PoolPolicy) : (l : Ledger α) → (events : List (PoolEvent α)) →
    Decidable (l.Permitted policy events)
  | _, [] => .isTrue trivial
  | l, event :: events =>
    have := decidablePermitted policy (l.step policy event) events
    inferInstanceAs (Decidable (l.Permits event ∧ (l.step policy event).Permitted policy events))

/-- Every object that was created is in one place, and every slot is held or awaits its object. -/
structure Balanced (policy : PoolPolicy) (l : Ledger α) : Prop where
  fresh : l.created.Nodup
  conserved : ∀ o, l.created.count o =
    (Pool.objects l.pool.idle).count o + l.held.count o + l.destroyed.count o
  slots : l.pool.borrowed = l.held.length + l.creating
  bound : l.pool.idle.length + l.pool.borrowed ≤ policy.maxTotal
  emptied : l.pool.closed = true → l.pool.idle = []

namespace Balanced
variable {policy : PoolPolicy} {l : Ledger α}

theorem start (policy : PoolPolicy) : Balanced policy (.start : Ledger α) where
  fresh := List.nodup_nil
  conserved _ := rfl
  slots := rfl
  bound := Nat.zero_le _
  emptied _ := rfl

theorem enter_created (h : Balanced policy l) {ρ : Type} {step : PoolStep α ρ} {held : List α}
    {creating : Nat} (hFresh : (l.created ++ createdIn step.calls).Nodup)
    (hMoved : ∀ o, (createdIn step.calls).count o + (Pool.objects l.pool.idle).count o + l.held.count o =
      (Pool.objects step.pool.idle).count o + held.count o + (destroyedIn step.calls).count o)
    (hSlots : step.pool.borrowed = held.length + creating)
    (hBound : step.pool.idle.length + step.pool.borrowed ≤ policy.maxTotal)
    (hEmptied : step.pool.closed = true → step.pool.idle = []) :
    Balanced policy (l.enter step held creating) where
  fresh := hFresh
  conserved o := by
    have hBefore := h.conserved o
    have hMoved := hMoved o
    simp only [Ledger.enter, List.count_append]
    omega
  slots := hSlots
  bound := hBound
  emptied := hEmptied

/-- A step in which nothing is created. -/
theorem enter (h : Balanced policy l) {ρ : Type} {step : PoolStep α ρ} {held : List α} {creating : Nat}
    (hCreated : createdIn step.calls = [])
    (hMoved : ∀ o, (Pool.objects l.pool.idle).count o + l.held.count o =
      (Pool.objects step.pool.idle).count o + held.count o + (destroyedIn step.calls).count o)
    (hSlots : step.pool.borrowed = held.length + creating)
    (hBound : step.pool.idle.length + step.pool.borrowed ≤ policy.maxTotal)
    (hEmptied : step.pool.closed = true → step.pool.idle = []) :
    Balanced policy (l.enter step held creating) := by
  refine h.enter_created ?_ (fun o => ?_) hSlots hBound hEmptied
  · rw [hCreated, List.append_nil]
    exact h.fresh
  · rw [hCreated, List.count_nil, Nat.zero_add]
    exact hMoved o

theorem borrow (h : Balanced policy l) (valid : α → Bool) :
    Balanced policy (l.step policy (.borrow valid)) := by
  have hSlots := h.slots
  have hBound := h.bound
  cases hClosed : l.pool.closed with
  | true =>
    simp only [Ledger.step, Pool.beginBorrow, hClosed, if_true]
    exact h.enter rfl (fun _ => rfl) hSlots hBound h.emptied
  | false =>
    have hOpen {idle : List (Idle α)} (hEnd : l.pool.closed = true) : idle = [] := by
      cases hClosed.symm.trans hEnd
    cases hTaken : Pool.takeIdle policy valid l.pool.idle with
    | mk found taken =>
      obtain ⟨rest, calls⟩ := taken
      obtain ⟨hCreated, hCount, hLength, hEmpty⟩ := Pool.takeIdle_spec hTaken
      cases found with
      | some object =>
        simp only [Ledger.step, Pool.beginBorrow, hClosed, Bool.false_eq_true, if_false, hTaken]
        refine h.enter hCreated (fun o => ?_) ?_ ?_ nofun
        · have hCount := hCount o
          simp only [Option.toList_some, List.count_cons, List.count_nil] at hCount ⊢
          omega
        · simp only [List.length_cons]
          omega
        · simp only [Option.toList_some, List.length_cons, List.length_nil] at hLength ⊢
          omega
      | none =>
        obtain rfl := hEmpty rfl
        have hGone (o : α) : (Pool.objects l.pool.idle).count o + l.held.count o =
            (Pool.objects []).count o + l.held.count o + (destroyedIn calls).count o := by
          have hCount := hCount o
          simp only [Option.toList_none, List.count_nil] at hCount
          omega
        by_cases hRoom : l.pool.borrowed < policy.maxTotal
        · simp only [Ledger.step, Pool.beginBorrow, hClosed, Bool.false_eq_true, if_false, hTaken,
            if_pos hRoom]
          refine h.enter hCreated hGone ?_ ?_ (fun _ => rfl)
          · simp only
            omega
          · simp only [List.length_nil]
            omega
        · simp only [Ledger.step, Pool.beginBorrow, hClosed, Bool.false_eq_true, if_false, hTaken,
            if_neg hRoom]
          refine h.enter hCreated hGone hSlots ?_ (fun _ => rfl)
          simp only [List.length_nil]
          omega

theorem create (h : Balanced policy l) {created : Except Error α} {valid : α → Bool}
    (hPermits : l.Permits (.create created valid)) :
    Balanced policy (l.step policy (.create created valid)) := by
  have hSlots := h.slots
  have hBound := h.bound
  cases created with
  | error cause =>
    have hUnderway : 0 < l.creating := hPermits
    simp only [Ledger.step, Pool.finishCreate, Pool.releaseSlot]
    refine h.enter rfl (fun _ => rfl) ?_ ?_ h.emptied
    · simp only
      omega
    · simp only
      omega
  | ok object =>
    obtain ⟨hUnderway, hNew⟩ := hPermits
    have hFresh : (l.created ++ [object]).Nodup := by
      refine List.nodup_append.mpr ⟨h.fresh, by simp, ?_⟩
      rintro o hOld i hLast rfl
      exact hNew (List.mem_singleton.mp hLast ▸ hOld)
    cases hPasses : Pool.passes valid policy.testOnCreate object with
    | true =>
      simp only [Ledger.step, Pool.finishCreate, hPasses, if_true]
      refine h.enter_created ?_ (fun o => ?_) ?_ hBound h.emptied
      · simpa [created?] using hFresh
      · simp [created?, destroyed?, List.count_cons]
        omega
      · simp only [List.length_cons]
        omega
    | false =>
      simp only [Ledger.step, Pool.finishCreate, Pool.releaseSlot, hPasses, Bool.false_eq_true, if_false]
      refine h.enter_created ?_ (fun o => ?_) ?_ ?_ h.emptied
      · simpa [created?] using hFresh
      · simp [created?, destroyed?]
        omega
      · simp only
        omega
      · simp only
        omega

theorem abandon (h : Balanced policy l) (hPermits : l.Permits .abandon) :
    Balanced policy (l.step policy .abandon) := by
  have hSlots := h.slots
  have hBound := h.bound
  have hUnderway : 0 < l.creating := hPermits
  exact {
    fresh := h.fresh
    conserved := h.conserved
    slots := by
      simp only [Ledger.step, Pool.abandonCreate, Pool.releaseSlot]
      omega
    bound := by
      simp only [Ledger.step, Pool.abandonCreate, Pool.releaseSlot]
      omega
    emptied := h.emptied }

theorem giveBack (h : Balanced policy l) {object : α} (hHeld : object ∈ l.held) (valid : α → Bool)
    (now : Nat) : Balanced policy (l.step policy (.giveBack object valid now)) := by
  have hSlots := h.slots
  have hBound := h.bound
  have hErase := List.perm_cons_erase hHeld
  have hLength := hErase.length_eq
  rw [List.length_cons] at hLength
  have hDestroyed {calls : List (PoolCall α)} (hCalls : destroyedIn calls = [object]) (o : α) :
      (Pool.objects l.pool.idle).count o + l.held.count o =
        (Pool.objects l.pool.idle).count o + (l.held.erase object).count o +
          (destroyedIn calls).count o := by
    have hCount := hErase.count_eq o
    rw [List.count_cons] at hCount
    rw [hCalls, List.count_singleton]
    omega
  cases hClosed : l.pool.closed with
  | true =>
    simp only [Ledger.step, Pool.giveBack, Pool.releaseSlot, hClosed, if_true]
    refine h.enter rfl (hDestroyed rfl) ?_ ?_ (fun _ => h.emptied hClosed)
    · simp only
      omega
    · simp only
      omega
  | false =>
    cases hPasses : Pool.passes valid policy.testOnReturn object with
    | true =>
      simp only [Ledger.step, Pool.giveBack, Pool.put, Pool.releaseSlot, hClosed, Bool.false_eq_true, if_false,
        hPasses, if_true]
      refine h.enter (by simp) (fun o => ?_) ?_ ?_ nofun
      · have hCount := hErase.count_eq o
        simp only [Pool.objects, List.map_cons, List.count_cons, List.count_nil, Pool.destroyedIn_checked]
          at hCount ⊢
        omega
      · simp only
        omega
      · simp only [List.length_cons]
        omega
    | false =>
      simp only [Ledger.step, Pool.giveBack, Pool.releaseSlot, hClosed, Bool.false_eq_true, if_false,
        hPasses]
      refine h.enter (by simp [created?]) (hDestroyed (by simp [destroyed?])) ?_ ?_ nofun
      · simp only
        omega
      · simp only
        omega

theorem invalidate (h : Balanced policy l) {object : α} (hHeld : object ∈ l.held) :
    Balanced policy (l.step policy (.invalidate object)) := by
  have hSlots := h.slots
  have hBound := h.bound
  have hErase := List.perm_cons_erase hHeld
  have hLength := hErase.length_eq
  rw [List.length_cons] at hLength
  simp only [Ledger.step, Pool.invalidate, Pool.releaseSlot]
  refine h.enter rfl (fun o => ?_) ?_ ?_ h.emptied
  · have hCount := hErase.count_eq o
    simp only [destroyedIn_cons, destroyed?, Option.toList_some, destroyedIn_nil, List.append_nil,
      List.count_cons, List.count_nil] at hCount ⊢
    omega
  · simp only
    omega
  · simp only
    omega

theorem evict (h : Balanced policy l) (valid : α → Bool) (now : Nat) :
    Balanced policy (l.step policy (.evict valid now)) := by
  have hBound := h.bound
  obtain ⟨hCreated, hCount, hLength⟩ := Pool.evict_spec policy valid now l.pool
  refine h.enter hCreated (fun o => ?_) h.slots ?_ (fun hClosed => ?_)
  · have hCount := hCount o
    omega
  · have hBorrowed : (l.pool.evict policy valid now).pool.borrowed = l.pool.borrowed := rfl
    omega
  · rw [h.emptied hClosed, List.length_nil] at hLength
    exact List.eq_nil_of_length_eq_zero (by omega)

theorem close (h : Balanced policy l) : Balanced policy (l.step policy .close) := by
  have hBound := h.bound
  cases hClosed : l.pool.closed with
  | true =>
    simp only [Ledger.step, Pool.close, hClosed, if_true]
    exact h.enter rfl (fun _ => rfl) h.slots hBound h.emptied
  | false =>
    simp only [Ledger.step, Pool.close, Pool.drain, hClosed, Bool.false_eq_true, if_false]
    refine h.enter (Pool.createdIn_map_destroy _) (fun o => ?_) h.slots ?_ (fun _ => rfl)
    · simp only [Pool.destroyedIn_map_destroy, Pool.objects, List.map_nil, List.count_nil]
      omega
    · simp only [List.length_nil]
      omega

theorem step (h : Balanced policy l) {event : PoolEvent α} (hPermits : l.Permits event) :
    Balanced policy (l.step policy event) := by
  cases event with
  | borrow valid => exact h.borrow valid
  | create created valid => exact h.create hPermits
  | abandon => exact h.abandon hPermits
  | giveBack object valid now => exact h.giveBack hPermits valid now
  | invalidate object => exact h.invalidate hPermits
  | evict valid now => exact h.evict valid now
  | close => exact h.close

theorem run (h : Balanced policy l) {events : List (PoolEvent α)} (hPermitted : l.Permitted policy events) :
    Balanced policy (l.run policy events) := by
  induction events generalizing l with
  | nil => exact h
  | cons event events ih => exact ih (h.step hPermitted.1) hPermitted.2

theorem count_eq_one (h : Balanced policy l) (o : α) :
    (Pool.objects l.pool.idle).count o + l.held.count o + l.destroyed.count o =
      if o ∈ l.created then 1 else 0 := by
  rw [← h.conserved o]
  exact List.Nodup.count h.fresh

end Balanced

/-! Once closed, a pool stays closed and keeps nothing. -/

section Closed
variable {policy : PoolPolicy} {l : Ledger α}

theorem closed_step (hClosed : l.pool.closed = true) (event : PoolEvent α) :
    (l.step policy event).pool.closed = true := by
  cases event with
  | borrow valid => simp [step, Pool.beginBorrow, hClosed, enter]
  | create created valid =>
    cases created with
    | error cause => exact hClosed
    | ok object =>
      cases hPasses : Pool.passes valid policy.testOnCreate object <;>
        simp [step, Pool.finishCreate, Pool.releaseSlot, hPasses, hClosed, enter]
  | giveBack object valid now => simp [step, Pool.giveBack, Pool.releaseSlot, hClosed, enter]
  | close => simp [step, Pool.close, hClosed, enter]
  | abandon | invalidate object | evict valid now => exact hClosed

theorem step_borrow_of_closed (hClosed : l.pool.closed = true) (valid : α → Bool) :
    l.step policy (.borrow valid) = l := by
  simp [step, Pool.beginBorrow, hClosed, enter]

theorem destroyed_step_giveBack (hClosed : l.pool.closed = true) (object : α) (valid : α → Bool)
    (now : Nat) :
    (l.step policy (.giveBack object valid now)).destroyed = l.destroyed ++ [object] := by
  simp [step, Pool.giveBack, hClosed, enter, destroyed?]

end Closed

/-- Whatever happens to a pool in whatever order, each object that was created for it is idle, held or
destroyed, and that once; a slot is taken by an object that is held or by a creation under way, and
idle objects and slots together never exceed the bound. A pool that has been closed keeps no object,
gives none out again and destroys those that come back. -/
theorem no_object_is_lost (policy : PoolPolicy) (events : List (PoolEvent α))
    (hPermitted : (start : Ledger α).Permitted policy events) :
    let l := (start : Ledger α).run policy events
    (∀ o, (Pool.objects l.pool.idle).count o + l.held.count o + l.destroyed.count o =
      if o ∈ l.created then 1 else 0) ∧
    l.pool.borrowed = l.held.length + l.creating ∧
    l.pool.idle.length + l.pool.borrowed ≤ policy.maxTotal ∧
    (l.step policy .close).pool.closed = true ∧
    (l.pool.closed = true →
      l.pool.idle = [] ∧
      (∀ event, (l.step policy event).pool.closed = true) ∧
      (∀ valid, (l.pool.beginBorrow policy valid).value = .done (.error .closed) ∧
        l.step policy (.borrow valid) = l) ∧
      ∀ object, (∀ valid now,
          (l.step policy (.giveBack object valid now)).destroyed = l.destroyed ++ [object]) ∧
        (l.step policy (.invalidate object)).destroyed = l.destroyed ++ [object]) := by
  intro l
  have h : Balanced policy l := (Balanced.start policy).run hPermitted
  refine ⟨h.count_eq_one, h.slots, h.bound, ?_, fun hClosed => ⟨h.emptied hClosed, closed_step hClosed,
    fun valid => ⟨?_, step_borrow_of_closed hClosed valid⟩,
    fun object => ⟨destroyed_step_giveBack hClosed object, rfl⟩⟩⟩
  · unfold step Pool.close
    cases hClosed : l.pool.closed <;> simp [enter, hClosed]
  · simp [Pool.beginBorrow, hClosed]

/-- One of two borrows is given up while it waits for its object; the object of the other breaks after
it came back, and the next one comes back too late. -/
def lateReturn : List (PoolEvent Nat) :=
  [.borrow fun _ => true, .borrow fun _ => true, .create (.ok 7) fun _ => true, .abandon,
    .giveBack 7 (fun _ => true) 0, .borrow fun _ => false, .create (.ok 8) fun _ => true, .close,
    .giveBack 8 (fun _ => true) 1]

/-- Two objects at most, checked whenever they are passed on. -/
def pairPolicy : PoolPolicy :=
  { maxTotal := 2, minEvictableIdle := 10, evictionInterval := 0, testOnCreate := true
    testOnBorrow := true, testOnReturn := true, testWhileIdle := true }

theorem no_object_is_lost_lateReturn :
    let l := (start : Ledger Nat).run pairPolicy lateReturn
    (∀ o, (Pool.objects l.pool.idle).count o + l.held.count o + l.destroyed.count o =
      if o ∈ [7, 8] then 1 else 0) ∧ l.pool.borrowed = 0 ∧ l.pool.idle = [] := by
  intro l
  have hPermitted : (start : Ledger Nat).Permitted pairPolicy lateReturn := by decide
  obtain ⟨hOnce, hSlots, -, -, hAfter⟩ := no_object_is_lost pairPolicy lateReturn hPermitted
  exact ⟨hOnce, hSlots, (hAfter (by decide)).1⟩

end Ledger
end Switchyard.Client
