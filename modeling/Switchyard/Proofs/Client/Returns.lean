import Mathlib.Data.List.Induction
import Switchyard.Proofs.Client.PoolConservation

/-! # The order of idle objects

Idle objects lie in the order in which they came back, the last one in front. Borrowing takes from the
front, sweeps and closing leave an order as it is, and only what comes back is put in front. Of an
object that has come back several times it is the last return that counts.
-/
namespace Switchyard.Client
set_option autoImplicit false

namespace PoolEvent
variable {α : Type}

/-- What comes back, and when. -/
def return? : PoolEvent α → Option (Idle α)
  | giveBack object _ now => some ⟨object, now⟩
  | borrow _ | create .. | abandon | invalidate _ | evict .. | close => none

/-- Returns and sweeps are told the time. -/
def time? : PoolEvent α → Option Nat
  | giveBack _ _ now | evict _ now => some now
  | borrow _ | create .. | abandon | invalidate _ | close => none

/-- All returns, the last one in front. -/
def returns (events : List (PoolEvent α)) : List (Idle α) := (events.filterMap return?).reverse

def times (events : List (PoolEvent α)) : List Nat := events.filterMap time?

theorem returns_append_singleton (events : List (PoolEvent α)) (event : PoolEvent α) :
    returns (events ++ [event]) = event.return?.toList ++ returns events := by
  rw [returns, List.filterMap_append, List.reverse_append, returns]
  cases hReturn : event.return? <;> simp [hReturn]

theorem map_since_sublist_times (events : List (PoolEvent α)) :
    ((events.filterMap return?).map (·.since)).Sublist (times events) := by
  induction events with
  | nil => exact .slnil
  | cons event events ih =>
    unfold times at ih ⊢
    cases event with
    | giveBack object valid now => exact ih.cons_cons now
    | evict valid now => exact ih.cons now
    | borrow valid => exact ih
    | create created valid => exact ih
    | abandon => exact ih
    | invalidate object => exact ih
    | close => exact ih

/-- Under a clock that never goes back, what is in front came back last. -/
theorem returns_pairwise {events : List (PoolEvent α)} (hClock : (times events).Pairwise (· ≤ ·)) :
    (returns events).Pairwise fun late early => early.since ≤ late.since := by
  have hReturns := hClock.sublist (map_since_sublist_times events)
  rw [returns, List.pairwise_reverse]
  exact List.pairwise_map.mp hReturns

theorem since_mem_times {events : List (PoolEvent α)} {entry : Idle α} (h : entry ∈ returns events) :
    entry.since ∈ times events :=
  (map_since_sublist_times events).subset (List.mem_map_of_mem (List.mem_reverse.mp h))

end PoolEvent

/-- The last return of every object, out of all returns. -/
def lastReturns {α : Type} [DecidableEq α] : List (Idle α) → List (Idle α)
  | [] => []
  | entry :: earlier => entry :: (lastReturns earlier).filter (·.object ≠ entry.object)

namespace Pool
variable {α : Type} (policy : PoolPolicy) (valid : α → Bool)

theorem takeIdle_suffix (idle : List (Idle α)) : (takeIdle policy valid idle).2.1 <:+ idle := by
  induction idle with
  | nil => exact List.suffix_rfl
  | cons entry idle ih =>
    unfold takeIdle
    dsimp only
    split
    · exact List.suffix_cons entry idle
    · exact ih.trans (List.suffix_cons entry idle)

theorem idle_beginBorrow_sublist (pool : Pool α) :
    (pool.beginBorrow policy valid).pool.idle.Sublist pool.idle := by
  have hLeft := (takeIdle_suffix policy valid pool.idle).sublist
  unfold beginBorrow
  split
  · exact .refl _
  · cases hTaken : takeIdle policy valid pool.idle with
    | mk found taken =>
      obtain ⟨rest, calls⟩ := taken
      rw [hTaken] at hLeft
      cases found with
      | some object => exact hLeft
      | none =>
        dsimp only
        split <;> exact hLeft

theorem idle_finishCreate (pool : Pool α) (created : Except Error α) :
    (pool.finishCreate policy valid created).pool.idle = pool.idle := by
  unfold finishCreate
  cases created with
  | error cause => rfl
  | ok object =>
    dsimp only
    split <;> rfl

theorem idle_giveBack_sublist (now : Nat) (pool : Pool α) (object : α) :
    (pool.giveBack policy valid now object).pool.idle.Sublist (⟨object, now⟩ :: pool.idle) := by
  unfold giveBack
  split
  · exact List.sublist_cons_self _ _
  · dsimp only
    split
    · exact .refl _
    · exact List.sublist_cons_self _ _

theorem idle_evict_sublist (now : Nat) (pool : Pool α) :
    (pool.evict policy valid now).pool.idle.Sublist pool.idle := by
  let oldest := pool.idle.drop pool.unswept
  have hOldest := List.filter_sublist (p := (!isDoomed policy valid now ·)) (l := oldest)
  have hAll := hOldest.append_left (pool.idle.take pool.unswept)
  rwa [List.take_append_drop] at hAll

theorem idle_close_sublist (pool : Pool α) : pool.close.pool.idle.Sublist pool.idle := by
  unfold close
  split
  · exact .refl _
  · exact List.nil_sublist _

end Pool

namespace Ledger
open PoolEvent
variable {α : Type} [DecidableEq α] {policy : PoolPolicy} {l : Ledger α}

/-- Only what comes back is put among the idle objects, and in front of them. -/
theorem idle_step_sublist (policy : PoolPolicy) (l : Ledger α) (event : PoolEvent α) :
    (l.step policy event).pool.idle.Sublist (event.return?.toList ++ l.pool.idle) := by
  cases event with
  | borrow valid =>
    have hSublist := l.pool.idle_beginBorrow_sublist policy valid
    unfold step
    dsimp only
    split <;> exact hSublist
  | create created valid =>
    have hSame := l.pool.idle_finishCreate policy valid created
    unfold step
    dsimp only
    split <;> exact hSame ▸ .refl _
  | abandon => exact .refl _
  | giveBack object valid now => exact l.pool.idle_giveBack_sublist policy valid now object
  | invalidate object => exact .refl _
  | evict valid now => exact l.pool.idle_evict_sublist policy valid now
  | close => exact l.pool.idle_close_sublist

theorem run_append_singleton (l : Ledger α) (events : List (PoolEvent α)) (event : PoolEvent α) :
    l.run policy (events ++ [event]) = (l.run policy events).step policy event := by
  simp [run]

theorem permitted_append_singleton {events : List (PoolEvent α)} {event : PoolEvent α} :
    l.Permitted policy (events ++ [event]) ↔
      l.Permitted policy events ∧ (l.run policy events).Permits event := by
  induction events generalizing l with
  | nil => simp [Permitted, run]
  | cons first events ih => simp [Permitted, run, ih, and_assoc]

/-- Whatever happens to a pool, its idle objects lie in the order of their returns. -/
theorem idle_sublist_returns (events : List (PoolEvent α)) :
    ((start : Ledger α).run policy events).pool.idle.Sublist (returns events) := by
  induction events using List.reverseRecOn with
  | nil => exact .slnil
  | append_singleton events event ih =>
    rw [run_append_singleton, returns_append_singleton]
    exact (idle_step_sublist policy _ event).trans (ih.append_left _)

theorem Balanced.not_idle_of_held (h : l.Balanced policy) {object : α} (hHeld : object ∈ l.held) :
    ∀ entry ∈ l.pool.idle, entry.object ≠ object := by
  rintro entry hEntry rfl
  have hIdle : entry.object ∈ Pool.objects l.pool.idle := List.mem_map_of_mem hEntry
  have hOnce := h.count_eq_one entry.object
  have hIdleCount := List.count_pos_iff.mpr hIdle
  have hHeldCount := List.count_pos_iff.mpr hHeld
  split at hOnce <;> omega

/-- If only held objects come back, the idle objects lie in the order of their last returns. -/
theorem idle_sublist_lastReturns {events : List (PoolEvent α)}
    (hPermitted : (start : Ledger α).Permitted policy events) :
    ((start : Ledger α).run policy events).pool.idle.Sublist (lastReturns (returns events)) := by
  induction events using List.reverseRecOn with
  | nil => exact .slnil
  | append_singleton events event ih =>
    obtain ⟨hBefore, hPermits⟩ := permitted_append_singleton.mp hPermitted
    have hIdle := ih hBefore
    have hStep := idle_step_sublist policy ((start : Ledger α).run policy events) event
    rw [run_append_singleton, returns_append_singleton]
    cases event with
    | giveBack object valid now =>
      rw [return?, Option.toList_some, List.singleton_append] at hStep ⊢
      have hBalanced := (Balanced.start policy).run hBefore
      -- Dropping earlier returns of the object drops nothing that is idle.
      have hOthers := hIdle.filter (·.object ≠ object)
      rw [List.filter_eq_self.mpr fun entry hEntry =>
        decide_eq_true (hBalanced.not_idle_of_held hPermits entry hEntry)] at hOthers
      exact hStep.trans (hOthers.cons_cons ⟨object, now⟩)
    | borrow valid => exact hStep.trans hIdle
    | create created valid => exact hStep.trans hIdle
    | abandon => exact hStep.trans hIdle
    | invalidate object => exact hStep.trans hIdle
    | evict valid now => exact hStep.trans hIdle
    | close => exact hStep.trans hIdle

end Ledger
end Switchyard.Client
