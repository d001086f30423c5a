import Switchyard.Client.PooledClient
import Switchyard.Control.EchoRequest

/-! # The echo back end

The client that echo requests are sent with, wherever an application keeps it.
-/
namespace Switchyard.Control
open Client Net
set_option autoImplicit false

/-- A reply that is not there when the network has answered will not come any more. -/
def settled : Option Client.Outcome → Client.Outcome
  | some outcome => outcome
  | none => .error .cancelled

def EchoClient.pooled {σ : Type} (network : Network) (limit : Duration)
    (get : σ → PooledClient Echo.Codec) (set : PooledClient Echo.Codec → σ → σ) : EchoClient σ where
  send payload timeout state :=
    let (reply, client) := (get state).send network limit (.new payload timeout)
    (settled (client.outcome? reply), set client state)
  abort connection state := set ((get state).destroy (connection.number - 1)) state

end Switchyard.Control
