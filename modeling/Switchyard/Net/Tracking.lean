import Switchyard.Net.Tracker

/-! # Holders of connections

Connections counted by a tracker, each held by a numbered holder until it lets go of it, and the waits
for idleness under numbers of their own.
-/
namespace Switchyard.Net
set_option autoImplicit false

structure Tracking where
  tracker : Tracker
  holders : List Nat
  waits : List Nat
deriving DecidableEq, Repr

namespace Tracking

def empty : Tracking := { tracker := .empty, holders := [], waits := [] }

/-- A holder that has a connection already lets go of it once it has the new one. -/
def track (t : Tracking) (holder : Nat) : ConnectionId × Tracking :=
  let (connection, tracker) := t.tracker.track
  if t.holders.contains holder then (connection, { t with tracker := tracker.release })
  else (connection, { t with tracker, holders := holder :: t.holders })

/-- Whether there was a connection to let go of. -/
def release (t : Tracking) (holder : Nat) : Bool × Tracking :=
  if t.holders.contains holder then
    (true, { t with tracker := t.tracker.release, holders := t.holders.erase holder })
  else (false, t)

/-- Begins a wait, which is kept unless it is over at once. -/
def wait (t : Tracking) (number : Nat) : Bool × Tracking :=
  if t.tracker.isIdle then (true, t)
  else (false, { t with waits := number :: t.waits.filter (· != number) })

/-- Whether a wait is over, none if there is no such wait. -/
def poll (t : Tracking) (number : Nat) : Option Bool × Tracking :=
  if !t.waits.contains number then (none, t)
  else if t.tracker.isIdle then (some true, { t with waits := t.waits.filter (· != number) })
  else (some false, t)

end Tracking
end Switchyard.Net
