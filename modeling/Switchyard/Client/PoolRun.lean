import Switchyard.Client.Pool

/-! # Runs of a pool

A pool of numbers, given out in the order in which its objects are created. From outside its objects
can break, creation can be held up or made to fail, and time can pass.
-/
namespace Switchyard.Client
set_option autoImplicit false

/-- `broken` has a number as often as it has been broken, `waiting` the borrows under way that wait for
their objects, and `calls` what has been asked of the maker of the objects. -/
structure PoolRun where
  policy : PoolPolicy
  pool : Pool Nat
  now : Nat
  created : Nat
  broken : List Nat
  failure : Option Error
  blocked : Bool
  waiting : List Nat
  evictors : List Evictor
  evictorsStopped : Bool
  calls : List (PoolCall Nat)
  metrics : Metrics

/-- A start gives up the borrow that waits under its number first. -/
inductive PoolAction where
  | borrow
  | start (borrow : Nat)
  | poll (borrow : Nat)
  | abandon (borrow : Nat)
  | giveBack (object : Nat)
  | invalidate (object : Nat)
  | evict
  | close
  | damage (object : Nat)
  | repair (object : Nat)
  | creationFails (cause : Option Error)
  | block (blocked : Bool)
  | spawnEvictor
  | stopEvictors
  | advance (millis : Nat)

inductive PoolReply where
  | borrowed (result : Except PoolError Nat)
  | waiting
  | returned (result : Except PoolError Unit)
  | evicted (count : Nat)
  | evictors (count : Nat)
  | done

namespace PoolRun

def new (policy : PoolPolicy) : PoolRun :=
  { policy, pool := .empty, now := 0, created := 0, broken := [], failure := none, blocked := false
    waiting := [], evictors := [], evictorsStopped := false, calls := [], metrics := [] }

def isValid (run : PoolRun) (object : Nat) : Bool := !run.broken.contains object

/-- Takes over what a pool operation has done. -/
def perform {ρ : Type} (run : PoolRun) (step : PoolStep Nat ρ) : ρ × PoolRun :=
  (step.value, { run with
    pool := step.pool, calls := run.calls ++ step.calls
    metrics := match step.counted with
      | some outcome => run.metrics.count (.poolBorrows outcome)
      | none => run.metrics })

/-- Creates the object that a borrow needs, or fails to. -/
def create (run : PoolRun) : PoolReply × PoolRun :=
  match run.failure with
  | some cause =>
    let (result, run) := run.perform (run.pool.finishCreate run.policy run.isValid (.error cause))
    (.borrowed result, run)
  | none =>
    let (result, run) := run.perform (run.pool.finishCreate run.policy run.isValid (.ok run.created))
    (.borrowed result, { run with created := run.created + 1 })

def abandon (run : PoolRun) (borrow : Nat) : PoolRun :=
  if run.waiting.contains borrow then
    { run with pool := run.pool.abandonCreate, waiting := run.waiting.erase borrow }
  else run

/-- A borrow given a number waits under it if it has to. -/
def beginBorrow (run : PoolRun) (borrow : Option Nat) : PoolReply × PoolRun :=
  match run.perform (run.pool.beginBorrow run.policy run.isValid) with
  | (.done result, run) => (.borrowed result, run)
  | (.creating, run) =>
    if run.blocked then (.waiting, { run with waiting := borrow.toList ++ run.waiting })
    else run.create

def sweep (run : PoolRun) : Nat × PoolRun :=
  run.perform (run.pool.evict run.policy run.isValid run.now)

/-- One millisecond passes; every evictor that is due sweeps. -/
def tick (run : PoolRun) : PoolRun :=
  let run := { run with now := run.now + 1 }
  (run.evictors.filter (·.sweepsAt run.now)).foldl (fun (run : PoolRun) _ => run.sweep.2) run

def advance (run : PoolRun) : Nat → PoolRun
  | 0 => run
  | millis + 1 => run.tick.advance millis

/-- Evictors that have been told to stop start no more. -/
def spawnEvictor (run : PoolRun) : PoolRun :=
  if run.evictorsStopped then run
  else { run with evictors := run.evictors ++ (Evictor.spawn? run.policy run.now).toList }

def step (run : PoolRun) : PoolAction → PoolReply × PoolRun
  | .borrow => run.beginBorrow none
  | .start borrow => (run.abandon borrow).beginBorrow (some borrow)
  | .poll borrow =>
    if !run.waiting.contains borrow then (.done, run)
    else if run.blocked then (.waiting, run)
    else { run with waiting := run.waiting.erase borrow }.create
  | .abandon borrow => (.done, run.abandon borrow)
  | .giveBack object =>
    let (result, run) := run.perform (run.pool.giveBack run.policy run.isValid run.now object)
    (.returned result, run)
  | .invalidate object => (.done, (run.perform (run.pool.invalidate object)).2)
  | .evict =>
    let (count, run) := run.sweep
    (.evicted count, run)
  | .close => (.done, (run.perform run.pool.close).2)
  | .damage object => (.done, { run with broken := object :: run.broken })
  | .repair object => (.done, { run with broken := run.broken.filter (· != object) })
  | .creationFails cause => (.done, { run with failure := cause })
  | .block blocked => (.done, { run with blocked })
  | .spawnEvictor =>
    let run := run.spawnEvictor
    (.evictors run.evictors.length, run)
  | .stopEvictors => (.evictors 0, { run with evictors := [], evictorsStopped := true })
  | .advance millis => (.done, run.advance millis)

end PoolRun
end Switchyard.Client
