import Switchyard.Net.Slots

/-! # Work after the response

What a handler leaves to be done after its answer is queued and run later, at most a given number of
actions at a time. The queue is idle once it has been closed and all of it has been run; an action
that breaks down ends like any other.
-/
namespace Switchyard.Rest
set_option autoImplicit false

structure PostResponse (σ : Type) where
  workers : Nat
  waiting : List (σ → σ)
  closed : Bool

namespace PostResponse

/-- Whether so many workers can be had. -/
def fit (workers : Nat) : Bool := Net.Slots.fit (max workers 1)

variable {σ : Type}

/-- At least one action can always run. -/
def new (workers : Nat) : PostResponse σ := { workers := max workers 1, waiting := [], closed := false }

def execute (p : PostResponse σ) (action : σ → σ) : PostResponse σ :=
  { p with waiting := p.waiting ++ [action] }

def close (p : PostResponse σ) : PostResponse σ := { p with closed := true }

def isIdle (p : PostResponse σ) : Bool := p.closed && p.waiting.isEmpty

/-- Runs whatever is waiting. -/
def drain (p : PostResponse σ) (state : σ) : σ × PostResponse σ :=
  (p.waiting.foldl (fun state action => action state) state, { p with waiting := [] })

end PostResponse
end Switchyard.Rest
