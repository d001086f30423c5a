/-! # The shutdown signal

A signal that may be given several times and of which only the last one is kept. A receiver that has
missed some learns how many before it gets the one that is kept.
-/
namespace Switchyard.Lifecycle
set_option autoImplicit false

/-- What a receiver finds when it looks without waiting. -/
inductive Reception where
  | signal
  | empty
  | lagged (missed : Nat)
deriving DecidableEq, Repr

/-- Receivers by name, each with the number of signals it is past. -/
structure Signal where
  sent : Nat
  receivers : List (Nat × Nat)
deriving DecidableEq, Repr

namespace Signal

def empty : Signal := { sent := 0, receivers := [] }

def receiverCount (s : Signal) : Nat := s.receivers.length

def trigger (s : Signal) : Signal := { s with sent := s.sent + 1 }

def unsubscribe (s : Signal) (name : Nat) : Bool × Signal :=
  (s.receivers.any (·.1 == name), { s with receivers := s.receivers.filter (·.1 != name) })

/-- A new receiver gets the signals given from now on; an old one of its name is gone. -/
def subscribe (s : Signal) (name : Nat) : Signal :=
  let (_, s) := s.unsubscribe name
  { s with receivers := (name, s.sent) :: s.receivers }

def moveTo (s : Signal) (name position : Nat) : Signal :=
  { s with receivers := s.receivers.map fun receiver =>
      if receiver.1 = name then (name, position) else receiver }

def receive (s : Signal) (name : Nat) : Option (Reception × Signal) :=
  (s.receivers.find? (·.1 == name)).map fun (_, position) =>
    if position = s.sent then (.empty, s)
    else if position + 1 = s.sent then (.signal, s.moveTo name s.sent)
    else (.lagged (s.sent - 1 - position), s.moveTo name (s.sent - 1))

end Signal
end Switchyard.Lifecycle
