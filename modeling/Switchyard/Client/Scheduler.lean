import Switchyard.Duration

/-! # Response timers

A clock in nanoseconds and the timers that run on it. A timer belongs to a key and ends when it fires,
when its key has no more need of it, or when the scheduler stops; a stopped scheduler starts none.
-/
namespace Switchyard.Client
set_option autoImplicit false

structure Timer (κ : Type) where
  key : κ
  deadline : Nat
deriving DecidableEq, Repr

structure Scheduler (κ : Type) where
  now : Nat
  timers : List (Timer κ)
  stopped : Bool
deriving DecidableEq, Repr

namespace Scheduler
variable {κ : Type}

def empty : Scheduler κ := { now := 0, timers := [], stopped := false }

def running (s : Scheduler κ) : Nat := s.timers.length

def start (s : Scheduler κ) (key : κ) (timeout : Duration) : Scheduler κ :=
  if s.stopped then s else { s with timers := s.timers ++ [⟨key, s.now + timeout.nanoseconds⟩] }

def retain (s : Scheduler κ) (needed : κ → Bool) : Scheduler κ :=
  { s with timers := s.timers.filter fun timer => needed timer.key }

def stop (s : Scheduler κ) : Scheduler κ := { s with timers := [], stopped := true }

def isDue (s : Scheduler κ) (timer : Timer κ) : Bool := timer.deadline ≤ s.now

/-- Moves the clock on; the keys of the timers that fire, in the order they were started. -/
def advance (s : Scheduler κ) (time : Duration) : List κ × Scheduler κ :=
  let s := { s with now := s.now + time.nanoseconds }
  ((s.timers.filter s.isDue).map (·.key), { s with timers := s.timers.filter (!s.isDue ·) })

end Scheduler
end Switchyard.Client
