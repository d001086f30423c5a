import Switchyard.Client.Error
import Switchyard.Config.Settings
import Switchyard.Metrics

/-! # Connection pool

A bounded pool of objects. Borrowing takes the object that came back last, or creates one while fewer
than the bound are out; it never waits for an object to come back. Creating takes time, so a borrow
that creates begins here and ends later, and its slot counts as borrowed in between.
-/
namespace Switchyard.Client
set_option autoImplicit false

/-- When objects are checked and when idle ones are given up. Times are in the units of the clock that
the pool is used with. -/
structure PoolPolicy where
  maxTotal : Nat
  minEvictableIdle : Nat
  evictionInterval : Nat
  testOnCreate : Bool
  testOnBorrow : Bool
  testOnReturn : Bool
  testWhileIdle : Bool
deriving DecidableEq, Repr

/-- As many objects as there are workers, checked at every turn. The clock counts milliseconds. -/
def PoolPolicy.ofSettings (s : Config.ClientSettings) : PoolPolicy :=
  { maxTotal := s.workers, minEvictableIdle := s.minEvictableIdleMillis
    evictionInterval := s.evictionIntervalMillis, testOnCreate := true, testOnBorrow := true
    testOnReturn := true, testWhileIdle := true }

/-- The same policy for a clock that counts nanoseconds. -/
def PoolPolicy.inNanoseconds (policy : PoolPolicy) : PoolPolicy :=
  { policy with
    minEvictableIdle := (Duration.ofMillis policy.minEvictableIdle).nanoseconds
    evictionInterval := (Duration.ofMillis policy.evictionInterval).nanoseconds }

structure Idle (α : Type) where
  object : α
  since : Nat
deriving DecidableEq, Repr

/-- `idle` has the object that came back last in front. -/
structure Pool (α : Type) where
  idle : List (Idle α)
  borrowed : Nat
  closed : Bool
deriving DecidableEq, Repr

/-- What the pool asks of those who make its objects. -/
inductive PoolCall (α : Type) where
  | create (created : Option α)
  | validate (object : α) (valid : Bool)
  | destroy (object : α)
deriving DecidableEq, Repr

/-- The outcome of a pool operation with the calls it has made, in order. -/
structure PoolStep (α ρ : Type) where
  value : ρ
  pool : Pool α
  calls : List (PoolCall α)
  counted : Option BorrowOutcome

/-- How a borrow begins: it is over at once, or an object is being created for it. -/
inductive BorrowStart (α : Type) where
  | done (result : Except PoolError α)
  | creating

/-- What a borrow comes away with when it looks into the pool. -/
inductive Sought (α : Type) where
  | taken (object : α)
  | reserved
  | exhausted

namespace Pool
variable {α : Type}

def empty : Pool α := { idle := [], borrowed := 0, closed := false }

def releaseSlot (pool : Pool α) : Pool α := { pool with borrowed := pool.borrowed - 1 }

def checked (valid : α → Bool) (test : Bool) (object : α) : List (PoolCall α) :=
  if test then [.validate object (valid object)] else []

def passes (valid : α → Bool) (test : Bool) (object : α) : Bool := !test || valid object

def objects (idle : List (Idle α)) : List α := idle.map (·.object)

/-- Whether a sweep gives an idle object up. -/
def isDoomed (policy : PoolPolicy) (valid : α → Bool) (now : Nat) (entry : Idle α) : Bool :=
  policy.minEvictableIdle ≤ now - entry.since || !passes valid policy.testWhileIdle entry.object

/-! What is done under the lock of the pool. Before and after it others can have their turn. -/

/-- An object that is to be created has its slot from now on. -/
def seek (policy : PoolPolicy) (pool : Pool α) : Sought α × Pool α :=
  match pool.idle with
  | entry :: idle => (.taken entry.object, { pool with idle, borrowed := pool.borrowed + 1 })
  | [] =>
    if pool.borrowed < policy.maxTotal then
      (.reserved, { pool with borrowed := pool.borrowed + 1 })
    else (.exhausted, pool)

/-- An object comes back at the time `now`. -/
def put (now : Nat) (pool : Pool α) (object : α) : Pool α :=
  { pool.releaseSlot with idle := ⟨object, now⟩ :: pool.idle }

/-- How many idle objects a sweep leaves alone, those that have come back last. -/
def unswept (pool : Pool α) : Nat := pool.idle.length - (pool.idle.length + 1) / 2

/-- One sweep over the half of the idle objects that has waited longest; what it gives up. -/
def takeDoomed (policy : PoolPolicy) (valid : α → Bool) (now : Nat) (pool : Pool α) :
    List α × Pool α :=
  let oldest := pool.idle.drop pool.unswept
  (objects (oldest.filter (isDoomed policy valid now)).reverse,
    { pool with
      idle := pool.idle.take pool.unswept ++ oldest.filter (!isDoomed policy valid now ·) })

def drain (pool : Pool α) : List α × Pool α := (objects pool.idle, { pool with idle := [] })

/-! Whole operations. -/

/-- Takes idle objects one after the other until one passes. -/
def takeIdle (policy : PoolPolicy) (valid : α → Bool) :
    List (Idle α) → Option α × List (Idle α) × List (PoolCall α)
  | [] => (none, [], [])
  | entry :: rest =>
    let calls := checked valid policy.testOnBorrow entry.object
    if passes valid policy.testOnBorrow entry.object then (some entry.object, rest, calls)
    else
      let (found, rest, more) := takeIdle policy valid rest
      (found, rest, calls ++ .destroy entry.object :: more)

def beginBorrow (policy : PoolPolicy) (valid : α → Bool) (pool : Pool α) :
    PoolStep α (BorrowStart α) :=
  if pool.closed then
    { value := .done (.error .closed), pool, calls := [], counted := none }
  else
    match takeIdle policy valid pool.idle with
    | (some object, idle, calls) =>
      { value := .done (.ok object), calls, counted := some .reused
        pool := { pool with idle, borrowed := pool.borrowed + 1 } }
    | (none, idle, calls) =>
      if pool.borrowed < policy.maxTotal then
        { value := .creating, calls, counted := none
          pool := { pool with idle, borrowed := pool.borrowed + 1 } }
      else
        { value := .done (.error (.exhausted policy.maxTotal)), calls, counted := some .exhausted
          pool := { pool with idle } }

/-- Ends a borrow whose object has been created, or could not be. -/
def finishCreate (policy : PoolPolicy) (valid : α → Bool) (pool : Pool α)
    (created : Except Error α) : PoolStep α (Except PoolError α) :=
  match created with
  | .error cause =>
    { value := .error (.create cause), pool := pool.releaseSlot, calls := [.create none]
      counted := some .createFailed }
  | .ok object =>
    let calls := .create (some object) :: checked valid policy.testOnCreate object
    if passes valid policy.testOnCreate object then
      { value := .ok object, pool, calls, counted := some .created }
    else
      { value := .error .invalidOnCreate, pool := pool.releaseSlot
        calls := calls ++ [.destroy object], counted := none }

/-- A borrow given up while its object is being created. -/
def abandonCreate (pool : Pool α) : Pool α := pool.releaseSlot

/-- Takes an object back at the time `now`. -/
def giveBack (policy : PoolPolicy) (valid : α → Bool) (now : Nat) (pool : Pool α) (object : α) :
    PoolStep α (Except PoolError Unit) :=
  if pool.closed then
    { value := .error .closed, pool := pool.releaseSlot, calls := [.destroy object], counted := none }
  else
    let calls := checked valid policy.testOnReturn object
    if passes valid policy.testOnReturn object then
      { value := .ok (), pool := pool.put now object, calls, counted := none }
    else
      { value := .ok (), pool := pool.releaseSlot, calls := calls ++ [.destroy object]
        counted := none }

def invalidate (pool : Pool α) (object : α) : PoolStep α Unit :=
  { value := (), pool := pool.releaseSlot, calls := [.destroy object], counted := none }

/-- A sweep and the end of what it gives up; the number of these. -/
def evict (policy : PoolPolicy) (valid : α → Bool) (now : Nat) (pool : Pool α) : PoolStep α Nat :=
  let (doomed, swept) := pool.takeDoomed policy valid now
  { value := doomed.length, pool := swept, counted := none
    calls := (pool.idle.drop pool.unswept).reverse.flatMap
        (fun entry => checked valid policy.testWhileIdle entry.object)
      ++ doomed.map .destroy }

/-- The first close destroys every idle object. -/
def close (pool : Pool α) : PoolStep α Unit :=
  if pool.closed then { value := (), pool, calls := [], counted := none }
  else
    let (objects, drained) := pool.drain
    { value := (), pool := { drained with closed := true }, calls := objects.map .destroy
      counted := none }

end Pool

/-- A periodic sweep, its first one a whole interval after its start. No interval means no sweep. -/
structure Evictor where
  started : Nat
  interval : Nat
deriving DecidableEq, Repr

def Evictor.spawn? (policy : PoolPolicy) (now : Nat) : Option Evictor :=
  if policy.evictionInterval = 0 then none else some ⟨now, policy.evictionInterval⟩

def Evictor.sweepsAt (evictor : Evictor) (now : Nat) : Bool :=
  evictor.started < now && (now - evictor.started) % evictor.interval == 0

end Switchyard.Client
