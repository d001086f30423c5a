import Switchyard.Proofs.Client.Returns

/-! # What a sweep gives up

A sweep looks at idle objects one at a time, from the one that came back first, and stops when it has
looked at half of them. Those that it keeps stay where they were.
-/
namespace Switchyard.Client
set_option autoImplicit false

/-- A sweep on its way. `ahead` are the idle objects that it has not looked at; of those it has looked at,
`kept` stay in their order and `doomed` go in the order in which they were met. -/
structure Sweep (α : Type) where
  ahead : List (Idle α)
  kept : List (Idle α)
  doomed : List α
  calls : List (PoolCall α)

namespace Sweep
variable {α : Type} (policy : PoolPolicy) (valid : α → Bool) (now : Nat)

def start (idle : List (Idle α)) : Sweep α := { ahead := idle, kept := [], doomed := [], calls := [] }

/-- Looks at the object that has waited longest among those it has not looked at. -/
def look (s : Sweep α) : Sweep α :=
  match s.ahead.getLast? with
  | none => s
  | some entry =>
    let s := { s with
      ahead := s.ahead.dropLast
      calls := s.calls ++ Pool.checked valid policy.testWhileIdle entry.object }
    if Pool.isDoomed policy valid now entry then { s with doomed := s.doomed ++ [entry.object] }
    else { s with kept := entry :: s.kept }

def looks (s : Sweep α) : Nat → Sweep α
  | 0 => s
  | n + 1 => (looks s n).look policy valid now

def finish (pool : Pool α) (s : Sweep α) : PoolStep α Nat :=
  { value := s.doomed.length, pool := { pool with idle := s.ahead ++ s.kept }, counted := none
    calls := s.calls ++ s.doomed.map .destroy }

/-- Where a sweep is when it has looked at all of `seen` and at none of `ahead`. -/
structure HasSeen (ahead seen : List (Idle α)) (s : Sweep α) : Prop where
  ahead : s.ahead = ahead
  kept : s.kept = seen.filter (!Pool.isDoomed policy valid now ·)
  doomed : s.doomed = Pool.objects (seen.filter (Pool.isDoomed policy valid now)).reverse
  calls : s.calls =
    seen.reverse.flatMap fun entry => Pool.checked valid policy.testWhileIdle entry.object

variable {policy valid now} {ahead seen : List (Idle α)} {entry : Idle α} {s : Sweep α}

theorem HasSeen.look (h : HasSeen policy valid now (ahead ++ [entry]) seen s) :
    HasSeen policy valid now ahead (entry :: seen) (s.look policy valid now) := by
  obtain ⟨hAhead, hKept, hDoomed, hCalls⟩ := h
  unfold Sweep.look
  rw [hAhead, List.getLast?_concat]
  dsimp only
  cases hJudged : Pool.isDoomed policy valid now entry with
  | true => constructor <;> simp [hKept, hDoomed, hCalls, hJudged, Pool.objects]
  | false => constructor <;> simp [hKept, hDoomed, hCalls, hJudged, Pool.objects]

/-- A sweep has looked at the objects at the end, as many as its steps are. -/
theorem hasSeen_looks (ahead seen : List (Idle α)) :
    HasSeen policy valid now ahead seen
      ((start (ahead ++ seen)).looks policy valid now seen.length) := by
  induction seen generalizing ahead with
  | nil => constructor <;> simp [looks, start, Pool.objects]
  | cons entry seen ih =>
    rw [List.length_cons, looks]
    have hBehind := ih (ahead ++ [entry])
    rw [List.append_assoc, List.singleton_append] at hBehind
    exact hBehind.look

end Sweep

namespace Pool
variable {α : Type} {policy : PoolPolicy} {valid : α → Bool} {now : Nat}

/-- A sweep comes to the same whether it looks at one object after the other or at all of them at once. -/
theorem evict_eq_finish (policy : PoolPolicy) (valid : α → Bool) (now : Nat) (pool : Pool α) :
    pool.evict policy valid now =
      ((Sweep.start pool.idle).looks policy valid now ((pool.idle.length + 1) / 2)).finish pool := by
  have hSeen : Sweep.HasSeen policy valid now (pool.idle.take pool.unswept)
      (pool.idle.drop pool.unswept) _ := Sweep.hasSeen_looks _ _
  have hHalf : (pool.idle.drop pool.unswept).length = (pool.idle.length + 1) / 2 := by
    rw [List.length_drop, unswept]
    omega
  rw [List.take_append_drop, hHalf] at hSeen
  obtain ⟨hAhead, hKept, hDoomed, hCalls⟩ := hSeen
  simp [evict, takeDoomed, Sweep.finish, hAhead, hKept, hDoomed, hCalls, objects]

/-- Whether an object has been idle for too long, or does not pass. -/
def IsStale (policy : PoolPolicy) (valid : α → Bool) (now : Nat) (entry : Idle α) : Prop :=
  entry.since + policy.minEvictableIdle ≤ now ∨ policy.testWhileIdle = true ∧ valid entry.object = false

instance (policy : PoolPolicy) (valid : α → Bool) (now : Nat) : DecidablePred (IsStale policy valid now) :=
  fun _ => inferInstanceAs (Decidable (_ ∨ _))

theorem isDoomed_eq {entry : Idle α} (hSince : entry.since ≤ now) :
    isDoomed policy valid now entry = decide (IsStale policy valid now entry) := by
  have hIdle : policy.minEvictableIdle ≤ now - entry.since ↔
      entry.since + policy.minEvictableIdle ≤ now := by omega
  rw [Bool.eq_iff_iff, decide_eq_true_iff]
  simp [isDoomed, passes, IsStale, hIdle]

theorem flatMap_checked (valid : α → Bool) (test : Bool) (idle : List (Idle α)) :
    idle.flatMap (fun entry => checked valid test entry.object) =
      if test then idle.map fun entry => .validate entry.object (valid entry.object) else [] := by
  cases test with
  | true => simp [checked, List.map_eq_flatMap]
  | false => simp [checked]

end Pool

namespace Ledger
open PoolEvent Pool
variable {α : Type} [DecidableEq α]

/-- Under a clock that never goes back, the idle objects of a pool lie in the order in which they came
back, the last one in front, whatever happens to the pool. A sweep then looks at the half of them that has
waited longest, one after the other from the oldest, and destroys in this order those that have been idle
for too long or do not pass. The others stay where they were, and nothing else changes. -/
theorem sweeps_give_up_the_oldest (policy : PoolPolicy) (events : List (PoolEvent α))
    (hClock : (times events).Pairwise (· ≤ ·)) :
    let pool := ((start : Ledger α).run policy events).pool
    pool.idle.Sublist (returns events) ∧
    pool.idle.Pairwise (fun late early => early.since ≤ late.since) ∧
    ∀ (valid : α → Bool) (now : Nat), (∀ time ∈ times events, time ≤ now) →
      let step := pool.evict policy valid now
      step = ((Sweep.start pool.idle).looks policy valid now ((pool.idle.length + 1) / 2)).finish pool ∧
      ∃ young old, pool.idle = young ++ old ∧ old.length = (pool.idle.length + 1) / 2 ∧
        (∀ late ∈ young, ∀ early ∈ old, early.since ≤ late.since) ∧
        step.calls =
          (if policy.testWhileIdle then
            old.reverse.map fun entry => .validate entry.object (valid entry.object) else []) ++
          ((old.reverse.filter (IsStale policy valid now ·)).map fun entry => .destroy entry.object) ∧
        step.value = (old.filter (IsStale policy valid now ·)).length ∧
        step.pool = { pool with idle := young ++ old.filter (¬IsStale policy valid now ·) } := by
  intro pool
  have hReturns : pool.idle.Sublist (returns events) := idle_sublist_returns events
  have hOrder := (returns_pairwise hClock).sublist hReturns
  refine ⟨hReturns, hOrder, fun valid now hNow => ⟨evict_eq_finish policy valid now pool, ?_⟩⟩
  have hSplit : pool.idle.take pool.unswept ++ pool.idle.drop pool.unswept = pool.idle :=
    List.take_append_drop ..
  have hHalves := List.pairwise_append.mp (hSplit.symm ▸ hOrder)
  have hSince (entry : Idle α) (hEntry : entry ∈ pool.idle.drop pool.unswept) : entry.since ≤ now :=
    hNow _ (since_mem_times (hReturns.subset (List.mem_of_mem_drop hEntry)))
  have hDoomed : (pool.idle.drop pool.unswept).filter (isDoomed policy valid now) =
      (pool.idle.drop pool.unswept).filter (IsStale policy valid now ·) :=
    List.filter_congr fun entry hEntry => isDoomed_eq (hSince entry hEntry)
  have hKept : (pool.idle.drop pool.unswept).filter (!isDoomed policy valid now ·) =
      (pool.idle.drop pool.unswept).filter (¬IsStale policy valid now ·) :=
    List.filter_congr fun entry hEntry => by rw [isDoomed_eq (hSince entry hEntry), decide_not]
  refine ⟨pool.idle.take pool.unswept, pool.idle.drop pool.unswept, hSplit.symm, ?_, hHalves.2.2, ?_, ?_, ?_⟩
  · rw [List.length_drop, unswept]
    omega
  · rw [← flatMap_checked, List.filter_reverse, ← hDoomed]
    simp [Pool.evict, takeDoomed, objects]
  · rw [← hDoomed]
    simp [Pool.evict, takeDoomed, objects]
  · rw [← hKept]
    rfl

def threeReturns : List (PoolEvent Nat) :=
  [.borrow fun _ => true, .create (.ok 7) fun _ => true, .borrow fun _ => true,
    .create (.ok 8) fun _ => true, .borrow fun _ => true, .create (.ok 9) fun _ => true,
    .giveBack 7 (fun _ => true) 1, .giveBack 8 (fun _ => true) 5, .giveBack 9 (fun _ => true) 6]

/-- Of three objects the sweep looks at two. One of these has been idle for too long, and that the third
has broken is not seen. -/
theorem sweeps_give_up_the_oldest_unseen :
    let policy := { pairPolicy with maxTotal := 3 }
    let pool := ((start : Ledger Nat).run policy threeReturns).pool
    let step := pool.evict policy (· != 9) 12
    pool.idle = [⟨9, 6⟩, ⟨8, 5⟩, ⟨7, 1⟩] ∧ step.value = 1 ∧ step.pool.idle = [⟨9, 6⟩, ⟨8, 5⟩] ∧
      step.calls = [.validate 7 true, .validate 8 true, .destroy 7] := by
  intro policy pool step
  have hIdle : pool.idle = [⟨9, 6⟩] ++ [⟨8, 5⟩, ⟨7, 1⟩] := by decide
  obtain ⟨-, -, hSweep⟩ := sweeps_give_up_the_oldest policy threeReturns (by decide)
  obtain ⟨-, young, old, hSplit, hLength, -, hCalls, hValue, hPool⟩ := hSweep (· != 9) 12 (by decide)
  have hHalves := List.append_inj' (hIdle.symm.trans hSplit) (hLength ▸ by decide)
  rw [hPool, hCalls, hValue, ← hHalves.1, ← hHalves.2]
  exact ⟨hIdle, by decide, by decide, by decide⟩

end Ledger
end Switchyard.Client
