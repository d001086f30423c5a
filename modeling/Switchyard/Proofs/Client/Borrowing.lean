import Switchyard.Client.PoolRun
import Switchyard.Proofs.Client.Returns

/-! # Which object a borrow takes

A borrow that nothing comes between takes the valid object that was returned last, destroys those that were
returned after it, and has an object made if none is valid. Idle objects and slots never exceed the
bound together, so that a borrow which has thrown idle objects away finds room for a new one.
-/
namespace Switchyard.Client
set_option autoImplicit false

namespace PoolCall
variable {α : Type}

/-- What became of an object that was to be made. -/
def making? : PoolCall α → Option (Option α)
  | create created => some created
  | validate .. | destroy _ => none

def makingsIn (calls : List (PoolCall α)) : List (Option α) := calls.filterMap making?

@[simp] theorem makingsIn_nil : makingsIn ([] : List (PoolCall α)) = [] := rfl

@[simp] theorem makingsIn_cons (call : PoolCall α) (calls : List (PoolCall α)) :
    makingsIn (call :: calls) = call.making?.toList ++ makingsIn calls := by
  unfold makingsIn
  cases hMaking : call.making? <;> simp [hMaking]

@[simp] theorem makingsIn_append (first second : List (PoolCall α)) :
    makingsIn (first ++ second) = makingsIn first ++ makingsIn second := List.filterMap_append

end PoolCall

namespace Pool
open PoolCall
variable {α : Type} {policy : PoolPolicy} {valid : α → Bool} {pool : Pool α}

/-- A borrow from its beginning to its end: what was made for it if it needs an object made, or nothing
if it is given up before. One that is given up has no value. -/
def borrow (policy : PoolPolicy) (valid : α → Bool) (pool : Pool α) (made : Option (Except Error α)) :
    PoolStep α (Option (Except PoolError α)) :=
  let start := pool.beginBorrow policy valid
  match start.value, made with
  | .done result, _ =>
    { value := some result, pool := start.pool, calls := start.calls, counted := start.counted }
  | .creating, some created =>
    let finish := start.pool.finishCreate policy valid created
    { value := some finish.value, pool := finish.pool, calls := start.calls ++ finish.calls
      counted := finish.counted }
  | .creating, none =>
    { value := none, pool := start.pool.abandonCreate, calls := start.calls, counted := start.counted }

/-- How an object is made for a borrow: what was made, what the borrow comes to, how the making ended,
and which new object is destroyed again. -/
inductive Makes (policy : PoolPolicy) (valid : α → Bool) :
    Option (Except Error α) → Option (Except PoolError α) → List (Option α) → List α → Prop
  | kept {object : α} (hPasses : passes valid policy.testOnCreate object = true) :
    Makes policy valid (some (.ok object)) (some (.ok object)) [some object] []
  | refused {object : α} (hPasses : passes valid policy.testOnCreate object = false) :
    Makes policy valid (some (.ok object)) (some (.error .invalidOnCreate)) [some object] [object]
  | failed (cause : Error) :
    Makes policy valid (some (.error cause)) (some (.error (.create cause))) [none] []
  | abandoned : Makes policy valid none none [] []

theorem Makes.ne_exhausted {made : Option (Except Error α)} {value : Option (Except PoolError α)}
    {makings : List (Option α)} {refused : List α} (h : Makes policy valid made value makings refused)
    (maxTotal : Nat) : value ≠ some (.error (.exhausted maxTotal)) := by
  rintro rfl
  cases h

/-- What is asked for an idle object that a borrow cannot use. -/
def discard (entry : Idle α) : List (PoolCall α) := [.validate entry.object false, .destroy entry.object]

@[simp] theorem makingsIn_checked (valid : α → Bool) (test : Bool) (object : α) :
    makingsIn (checked valid test object) = [] := by
  cases test <;> rfl

@[simp] theorem destroyedIn_discard (stale : List (Idle α)) :
    destroyedIn (stale.flatMap discard) = objects stale := by
  induction stale with
  | nil => rfl
  | cons entry stale ih => simp [discard, destroyed?, ih, objects]

@[simp] theorem makingsIn_discard (stale : List (Idle α)) : makingsIn (stale.flatMap discard) = [] := by
  induction stale with
  | nil => rfl
  | cons entry stale ih => simpa [discard, making?] using ih

/-- A borrow that nothing comes between looks into the pool until what it comes away with is of use. -/
theorem beginBorrow_of_taken (hOpen : pool.closed = false) {object : α} {taken : Pool α}
    (hSeek : pool.seek policy = (.taken object, taken)) :
    let calls := checked valid policy.testOnBorrow object
    let next := taken.releaseSlot.beginBorrow policy valid
    pool.beginBorrow policy valid =
      if passes valid policy.testOnBorrow object then
        { value := .done (.ok object), pool := taken, calls, counted := some .reused }
      else { next with calls := calls ++ .destroy object :: next.calls } := by
  obtain ⟨idle, borrowed, closed⟩ := pool
  cases hOpen
  cases idle with
  | nil =>
    simp only [seek] at hSeek
    split at hSeek <;> cases hSeek
  | cons entry rest =>
    obtain ⟨rfl, rfl⟩ : entry.object = object ∧ ⟨rest, borrowed + 1, false⟩ = taken := by
      simpa [seek] using hSeek
    simp only [beginBorrow, takeIdle, releaseSlot, Nat.add_sub_cancel, Bool.false_eq_true, if_false]
    cases hPasses : passes valid policy.testOnBorrow entry.object with
    | true => simp only [if_true]
    | false =>
      simp only [Bool.false_eq_true, if_false]
      generalize takeIdle policy valid rest = found
      obtain ⟨found, idle, calls⟩ := found
      cases found with
      | some object => rfl
      | none =>
        dsimp only
        split <;> rfl

theorem beginBorrow_of_not_taken (hOpen : pool.closed = false) {sought : Sought α} {taken : Pool α}
    (hSeek : pool.seek policy = (sought, taken)) :
    (sought = .reserved → pool.beginBorrow policy valid =
      { value := .creating, pool := taken, calls := [], counted := none }) ∧
    (sought = .exhausted → pool.beginBorrow policy valid =
      { value := .done (.error (.exhausted policy.maxTotal)), pool := taken, calls := []
        counted := some .exhausted }) := by
  obtain ⟨idle, borrowed, closed⟩ := pool
  cases hOpen
  cases idle with
  | cons entry rest =>
    cases hSeek
    constructor <;> intro hOther <;> cases hOther
  | nil =>
    simp only [seek] at hSeek
    split at hSeek
    case isTrue hRoom =>
      cases hSeek
      refine ⟨fun _ => by simp [beginBorrow, takeIdle, hRoom], fun hOther => ?_⟩
      cases hOther
    case isFalse hFull =>
      cases hSeek
      refine ⟨fun hOther => ?_, fun _ => by simp [beginBorrow, takeIdle, hFull]⟩
      cases hOther

section Tested
variable (hTest : policy.testOnBorrow = true) {stale rest : List (Idle α)} {entry : Idle α}
include hTest

theorem takeIdle_cons_of_invalid (hInvalid : valid entry.object = false) :
    takeIdle policy valid (entry :: rest) =
      ((takeIdle policy valid rest).1, (takeIdle policy valid rest).2.1,
        discard entry ++ (takeIdle policy valid rest).2.2) := by
  simp [takeIdle, passes, checked, hTest, hInvalid, discard]

theorem takeIdle_cons_of_valid (hValid : valid entry.object = true) :
    takeIdle policy valid (entry :: rest) =
      (some entry.object, rest, [.validate entry.object true]) := by
  simp [takeIdle, passes, checked, hTest, hValid]

theorem takeIdle_of_valid (hStale : ∀ e ∈ stale, valid e.object = false) (hValid : valid entry.object = true) :
    takeIdle policy valid (stale ++ entry :: rest) =
      (some entry.object, rest, stale.flatMap discard ++ [.validate entry.object true]) := by
  induction stale with
  | nil => exact takeIdle_cons_of_valid hTest hValid
  | cons first stale ih =>
    obtain ⟨hFirst, hStale⟩ := List.forall_mem_cons.mp hStale
    rw [List.cons_append, takeIdle_cons_of_invalid hTest hFirst, ih hStale, List.flatMap_cons,
      List.append_assoc]

theorem takeIdle_of_none_valid (hStale : ∀ e ∈ stale, valid e.object = false) :
    takeIdle policy valid stale = (none, [], stale.flatMap discard) := by
  induction stale with
  | nil => rfl
  | cons first stale ih =>
    obtain ⟨hFirst, hStale⟩ := List.forall_mem_cons.mp hStale
    rw [takeIdle_cons_of_invalid hTest hFirst, ih hStale, List.flatMap_cons]

variable (hOpen : pool.closed = false)
include hOpen

theorem beginBorrow_of_valid (hIdle : pool.idle = stale ++ entry :: rest)
    (hStale : ∀ e ∈ stale, valid e.object = false) (hValid : valid entry.object = true) :
    pool.beginBorrow policy valid =
      { value := .done (.ok entry.object), counted := some .reused
        calls := stale.flatMap discard ++ [.validate entry.object true]
        pool := { pool with idle := rest, borrowed := pool.borrowed + 1 } } := by
  simp [beginBorrow, hOpen, hIdle, takeIdle_of_valid hTest hStale hValid]

theorem beginBorrow_of_room (hStale : ∀ e ∈ pool.idle, valid e.object = false)
    (hRoom : pool.borrowed < policy.maxTotal) :
    pool.beginBorrow policy valid =
      { value := .creating, calls := pool.idle.flatMap discard, counted := none
        pool := { pool with idle := [], borrowed := pool.borrowed + 1 } } := by
  simp [beginBorrow, hOpen, takeIdle_of_none_valid hTest hStale, hRoom]

end Tested

theorem beginBorrow_of_full (hOpen : pool.closed = false) (hIdle : pool.idle = [])
    (hFull : policy.maxTotal ≤ pool.borrowed) :
    pool.beginBorrow policy valid =
      { value := .done (.error (.exhausted policy.maxTotal)), calls := [], counted := some .exhausted
        pool } := by
  have hSeek : pool.seek policy = (.exhausted, pool) := by
    simp [seek, hIdle, Nat.not_lt.mpr hFull]
  exact (beginBorrow_of_not_taken hOpen hSeek).2 rfl

theorem exists_first_valid (valid : α → Bool) (idle : List (Idle α)) :
    (∃ stale entry rest, idle = stale ++ entry :: rest ∧ (∀ e ∈ stale, valid e.object = false) ∧
      valid entry.object = true) ∨ ∀ e ∈ idle, valid e.object = false := by
  cases hFind : idle.find? (valid ·.object) with
  | none =>
    right
    intro e he
    simpa using List.find?_eq_none.mp hFind e he
  | some entry =>
    obtain ⟨hValid, stale, rest, hIdle, hStale⟩ := List.find?_eq_some_iff_append.mp hFind
    exact .inl ⟨stale, entry, rest, hIdle, fun e he => by simpa using hStale e he, hValid⟩

theorem borrow_of_valid (hTest : policy.testOnBorrow = true) (hOpen : pool.closed = false)
    {stale rest : List (Idle α)} {entry : Idle α} (hIdle : pool.idle = stale ++ entry :: rest)
    (hStale : ∀ e ∈ stale, valid e.object = false) (hValid : valid entry.object = true)
    (made : Option (Except Error α)) :
    pool.borrow policy valid made =
      { value := some (.ok entry.object), counted := some .reused
        calls := stale.flatMap discard ++ [.validate entry.object true]
        pool := { pool with idle := rest, borrowed := pool.borrowed + 1 } } := by
  simp only [borrow, beginBorrow_of_valid hTest hOpen hIdle hStale hValid]

theorem borrow_of_full (hOpen : pool.closed = false) (hIdle : pool.idle = [])
    (hFull : policy.maxTotal ≤ pool.borrowed) (made : Option (Except Error α)) :
    pool.borrow policy valid made =
      { value := some (.error (.exhausted policy.maxTotal)), calls := [], counted := some .exhausted
        pool } := by
  simp only [borrow, beginBorrow_of_full hOpen hIdle hFull]

/-- However the making ends, the slot it has taken is kept exactly for an object that can be used. -/
theorem makes_finishCreate (policy : PoolPolicy) (valid : α → Bool) (pool : Pool α) (hTaken : 0 < pool.borrowed)
    (created : Except Error α) :
    let finish := pool.finishCreate policy valid created
    Makes policy valid (some created) (some finish.value) (makingsIn finish.calls)
      (destroyedIn finish.calls) ∧
    finish.pool.borrowed + 1 = pool.borrowed + finish.value.toOption.toList.length := by
  cases created with
  | error cause =>
    refine ⟨.failed cause, ?_⟩
    simp only [finishCreate, releaseSlot, Except.toOption, Option.toList_none, List.length_nil]
    omega
  | ok object =>
    cases hPasses : passes valid policy.testOnCreate object with
    | true =>
      simp only [finishCreate, hPasses, if_true]
      refine ⟨?_, rfl⟩
      simpa [making?, destroyed?] using Makes.kept hPasses
    | false =>
      simp only [finishCreate, hPasses, releaseSlot, Bool.false_eq_true, if_false]
      constructor
      · simpa [making?, destroyed?] using Makes.refused hPasses
      · simp only [Except.toOption, Option.toList_none, List.length_nil]
        omega

/-- A borrow that needs an object made destroys all idle ones, and keeps its slot only if it comes to
an object. -/
theorem borrow_of_room (hTest : policy.testOnBorrow = true) (hOpen : pool.closed = false)
    (hStale : ∀ e ∈ pool.idle, valid e.object = false) (hRoom : pool.borrowed < policy.maxTotal)
    (made : Option (Except Error α)) :
    let step := pool.borrow policy valid made
    (∃ refused, destroyedIn step.calls = objects pool.idle ++ refused ∧
      Makes policy valid made step.value (makingsIn step.calls) refused) ∧
    step.pool.idle = [] ∧
    step.pool.borrowed = pool.borrowed + (step.value.bind (·.toOption)).toList.length := by
  have hStart := beginBorrow_of_room hTest hOpen hStale hRoom
  cases made with
  | none =>
    simp only [borrow, hStart]
    refine ⟨⟨[], ?_, ?_⟩, rfl, rfl⟩
    · rw [destroyedIn_discard, List.append_nil]
    · rw [makingsIn_discard]
      exact .abandoned
  | some created =>
    simp only [borrow, hStart]
    obtain ⟨hMakes, hSlot⟩ := makes_finishCreate policy valid
      { pool with idle := [], borrowed := pool.borrowed + 1 } (Nat.succ_pos _) created
    have hIdle := idle_finishCreate policy valid { pool with idle := [], borrowed := pool.borrowed + 1 } created
    generalize finishCreate policy valid { pool with idle := [], borrowed := pool.borrowed + 1 } created = finish
      at hMakes hSlot hIdle ⊢
    refine ⟨⟨destroyedIn finish.calls, ?_, ?_⟩, hIdle, ?_⟩
    · rw [destroyedIn_append, destroyedIn_discard]
    · rwa [makingsIn_append, makingsIn_discard, List.nil_append]
    · simp only [Option.bind_some] at hSlot ⊢
      omega

end Pool

namespace PoolRun

def made (run : PoolRun) : Except Error Nat :=
  match run.failure with
  | some cause => .error cause
  | none => .ok run.created

/-- A run in which nothing is held up borrows without anything in between. -/
theorem step_borrow (run : PoolRun) (hFree : run.blocked = false) :
    let step := run.pool.borrow run.policy run.isValid (some run.made)
    step.value.map PoolReply.borrowed = some (run.step .borrow).1 ∧
      (run.step .borrow).2.pool = step.pool ∧ (run.step .borrow).2.calls = run.calls ++ step.calls := by
  simp only [PoolRun.step, PoolRun.beginBorrow, perform, Pool.borrow]
  cases hStart : (run.pool.beginBorrow run.policy run.isValid).value with
  | done result => exact ⟨rfl, rfl, rfl⟩
  | creating =>
    simp only [hFree, create, made, Bool.false_eq_true, if_false]
    cases run.failure with
    | some cause => exact ⟨rfl, rfl, List.append_assoc ..⟩
    | none => exact ⟨rfl, rfl, List.append_assoc ..⟩

end PoolRun

namespace Ledger
open PoolCall PoolEvent Pool
variable {α : Type} [DecidableEq α] {policy : PoolPolicy} {l : Ledger α}

theorem Balanced.idle_eq_nil_of_full (h : l.Balanced policy) (hFull : policy.maxTotal ≤ l.pool.borrowed) :
    l.pool.idle = [] := by
  have hBound := h.bound
  exact List.eq_nil_of_length_eq_zero (by omega)

/-- All ways that a borrow can go. -/
theorem Balanced.borrow_cases (h : l.Balanced policy) (valid : α → Bool) :
    (∃ stale entry rest, l.pool.idle = stale ++ entry :: rest ∧ (∀ e ∈ stale, valid e.object = false) ∧
      valid entry.object = true ∧ l.pool.borrowed < policy.maxTotal) ∨
    ((∀ e ∈ l.pool.idle, valid e.object = false) ∧ l.pool.borrowed < policy.maxTotal) ∨
    (l.pool.idle = [] ∧ policy.maxTotal ≤ l.pool.borrowed) := by
  by_cases hFull : policy.maxTotal ≤ l.pool.borrowed
  · exact .inr (.inr ⟨h.idle_eq_nil_of_full hFull, hFull⟩)
  · have hRoom := Nat.lt_of_not_le hFull
    rcases exists_first_valid valid l.pool.idle with ⟨stale, entry, rest, hIdle, hStale, hValid⟩ | hStale
    · exact .inl ⟨stale, entry, rest, hIdle, hStale, hValid, hRoom⟩
    · exact .inr (.inl ⟨hStale, hRoom⟩)

/-- A slot is taken by a borrow that comes to an object and by no other, and none is left exactly if the
pool is found exhausted. -/
theorem Balanced.slots_borrow (h : l.Balanced policy) (hTest : policy.testOnBorrow = true)
    (hOpen : l.pool.closed = false) (valid : α → Bool) (made : Option (Except Error α)) :
    let step := l.pool.borrow policy valid made
    step.pool.borrowed = l.pool.borrowed + (step.value.bind (·.toOption)).toList.length ∧
    (step.value = some (.error (.exhausted policy.maxTotal)) ↔ policy.maxTotal ≤ l.pool.borrowed) := by
  intro step
  rcases h.borrow_cases valid with ⟨stale, entry, rest, hIdle, hStale, hValid, hRoom⟩ | ⟨hStale, hRoom⟩ |
    ⟨hIdle, hFull⟩
  · have hStep : step = _ := borrow_of_valid hTest hOpen hIdle hStale hValid made
    rw [hStep]
    exact ⟨rfl, by simpa using hRoom⟩
  · obtain ⟨⟨refused, -, hMakes⟩, -, hSlot⟩ := borrow_of_room hTest hOpen hStale hRoom made
    refine ⟨hSlot, iff_of_false ?_ (Nat.not_le.mpr hRoom)⟩
    exact hMakes.ne_exhausted policy.maxTotal
  · have hStep : step = _ := borrow_of_full hOpen hIdle hFull made
    rw [hStep]
    exact ⟨rfl, iff_of_true rfl hFull⟩

/-- In a pool that is open and checks what it lends, and to which only held objects come back, a borrow
that nothing comes between takes the first valid object in the order of the last returns. It destroys
those in front of it, in that order, and has none made. If none is valid, it destroys all and has one
made. It finds the pool exhausted exactly if as many objects as there may be are held or being made,
and then nothing has been idle. A slot is taken by a borrow that comes to an object and by no other. -/
theorem borrow_takes_the_last_valid_return (policy : PoolPolicy) (hTest : policy.testOnBorrow = true)
    (events : List (PoolEvent α)) (hPermitted : (start : Ledger α).Permitted policy events)
    (hOpen : ((start : Ledger α).run policy events).pool.closed = false) (valid : α → Bool)
    (made : Option (Except Error α)) :
    let l := (start : Ledger α).run policy events
    let step := l.pool.borrow policy valid made
    l.pool.idle.Sublist (lastReturns (returns events)) ∧
    (∀ stale entry rest, l.pool.idle = stale ++ entry :: rest →
      (∀ e ∈ stale, valid e.object = false) → valid entry.object = true →
        step.value = some (.ok entry.object) ∧ destroyedIn step.calls = objects stale ∧
        makingsIn step.calls = [] ∧ step.pool.idle = rest) ∧
    ((∀ e ∈ l.pool.idle, valid e.object = false) → l.held.length + l.creating ≠ policy.maxTotal →
      ∃ refused, destroyedIn step.calls = objects l.pool.idle ++ refused ∧
        Makes policy valid made step.value (makingsIn step.calls) refused ∧ step.pool.idle = []) ∧
    (step.value = some (.error (.exhausted policy.maxTotal)) ↔
      l.held.length + l.creating = policy.maxTotal) ∧
    (l.held.length + l.creating = policy.maxTotal → step.calls = [] ∧ step.pool = l.pool) ∧
    ((∃ object, step.value = some (.ok object)) → step.pool.borrowed = l.pool.borrowed + 1) ∧
    ((∀ object, step.value ≠ some (.ok object)) → step.pool.borrowed = l.pool.borrowed) := by
  intro l step
  have h : l.Balanced policy := (Balanced.start policy).run hPermitted
  obtain ⟨hSlot, hExhausted⟩ := h.slots_borrow hTest hOpen valid made
  have hFull : l.held.length + l.creating = policy.maxTotal ↔ policy.maxTotal ≤ l.pool.borrowed := by
    have hSlots := h.slots
    have hBound := h.bound
    omega
  refine ⟨idle_sublist_lastReturns hPermitted, ?_, ?_, hExhausted.trans hFull.symm, ?_, ?_, ?_⟩
  · intro stale entry rest hIdle hStale hValid
    have hStep : step = _ := borrow_of_valid hTest hOpen hIdle hStale hValid made
    rw [hStep]
    simp [destroyed?, making?]
  · intro hStale hNotFull
    have hRoom := Nat.lt_of_not_le (hFull.not.mp hNotFull)
    obtain ⟨⟨refused, hDestroyed, hMakes⟩, hIdle, -⟩ := borrow_of_room hTest hOpen hStale hRoom made
    exact ⟨refused, hDestroyed, hMakes, hIdle⟩
  · intro hAll
    have hTaken := hFull.mp hAll
    have hStep : step = _ := borrow_of_full hOpen (h.idle_eq_nil_of_full hTaken) hTaken made
    rw [hStep]
    exact ⟨rfl, rfl⟩
  · rintro ⟨object, hValue⟩
    rw [hSlot, hValue]
    rfl
  · intro hFails
    rw [hSlot]
    rcases hValue : step.value with _ | (cause | object)
    · rfl
    · rfl
    · exact absurd hValue (hFails object)

/-- Two objects come back, and the one that came back last does so a second time. -/
def twoReturns : List (PoolEvent Nat) :=
  [.borrow fun _ => true, .create (.ok 7) fun _ => true, .borrow fun _ => true,
    .create (.ok 8) fun _ => true, .giveBack 7 (fun _ => true) 1, .giveBack 8 (fun _ => true) 2,
    .borrow fun _ => true, .giveBack 8 (fun _ => true) 3]

/-- The object that came back last breaks while it is idle. -/
theorem borrow_takes_the_last_valid_return_broken :
    let l := (start : Ledger Nat).run pairPolicy twoReturns
    let step := l.pool.borrow pairPolicy (· != 8) none
    l.pool.idle = [⟨8, 3⟩, ⟨7, 1⟩] ∧ lastReturns (returns twoReturns) = [⟨8, 3⟩, ⟨7, 1⟩] ∧
      step.value = some (.ok 7) ∧ destroyedIn step.calls = [8] ∧ makingsIn step.calls = [] ∧
      step.pool.borrowed = 1 := by
  intro l step
  have hIdle : l.pool.idle = [⟨8, 3⟩] ++ ⟨7, 1⟩ :: [] := by decide
  obtain ⟨-, hTaken, -, -, -, hSlot, -⟩ := borrow_takes_the_last_valid_return pairPolicy (by decide)
    twoReturns (by decide) (by decide) (· != 8) none
  obtain ⟨hValue, hDestroyed, hMakings, -⟩ := hTaken _ _ _ hIdle (by decide) (by decide)
  exact ⟨hIdle, by decide, hValue, hDestroyed, hMakings, hSlot ⟨7, hValue⟩⟩

end Ledger
end Switchyard.Client
