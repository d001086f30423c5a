/-! # Connection tracking

Identities of connections, and the count of those that live.
-/
namespace Switchyard.Net
set_option autoImplicit false

structure ConnectionId where
  number : Nat
deriving DecidableEq, Repr

def ConnectionId.text (id : ConnectionId) : String := s!"conn-{id.number}"

structure Tracker where
  active : Nat
  nextId : Nat
deriving DecidableEq, Repr

namespace Tracker

def empty : Tracker := { active := 0, nextId := 1 }

def track (t : Tracker) : ConnectionId × Tracker :=
  (⟨t.nextId⟩, { active := t.active + 1, nextId := t.nextId + 1 })

def release (t : Tracker) : Tracker := { t with active := t.active - 1 }

/-- Waiting for idleness ends as soon as nothing lives. -/
def isIdle (t : Tracker) : Bool := t.active == 0

end Tracker
end Switchyard.Net
