import Switchyard.Client.Link
import Switchyard.Client.PoolRun
import Switchyard.Config.LogLevel
import Switchyard.Echo.Session
import Switchyard.Lifecycle.Signal
import Switchyard.Main
import Switchyard.Net.Tracking
import Switchyard.Proxy.Pairing
import Switchyard.Proxy.Script
import Switchyard.Proxy.Session
import Switchyard.Proofs.Rest.AssemblyLog
import Switchyard.Proofs.Rest.Independence
import Switchyard.Proofs.Rest.Keys
import Switchyard.Proofs.Rest.Routing
import Switchyard.Proofs.Client.Correlation
import Switchyard.Proofs.Client.Completion
import Switchyard.Proofs.Client.PoolConservation
import Switchyard.Proofs.Client.EchoReplies
import Switchyard.Proofs.Proxy.Fidelity
import Switchyard.Proofs.Rest.NormalForm
import Switchyard.Echo.Buffers
import Switchyard.Proofs.Echo.Transcript
import Switchyard.Proofs.Client.Deadlines
import Switchyard.Proofs.Proxy.Draining
import Switchyard.Proofs.Proxy.Termination
import Switchyard.Proofs.Text.Escapes
import Switchyard.Proofs.Rest.Grammar
import Switchyard.Proofs.Rest.Closing
import Switchyard.Proofs.Rest.Turns
import Switchyard.Proofs.Rest.Lifecycle
import Switchyard.Proofs.Client.Activity
import Switchyard.Proofs.Client.Evolution
import Switchyard.Proofs.Client.Progress
import Switchyard.Proofs.Client.Slots
import Switchyard.Proofs.Client.Finality
import Switchyard.Proofs.Client.Thriving
import Switchyard.Proofs.Client.Loopback
import Switchyard.Proofs.Rest.Discretion
import Switchyard.Proofs.Config.Acceptance
import Switchyard.Proofs.Net.Hosting
import Switchyard.Proofs.Control.Delivery
import Switchyard.Proofs.Rest.Arguments
import Switchyard.Proofs.Rest.WrittenPaths
import Switchyard.Proofs.Rest.Construction
import Switchyard.Proofs.Client.Returns
import Switchyard.Proofs.Client.Borrowing
import Switchyard.Proofs.Client.Sweeping
import Switchyard.Proofs.Client.Settlement
import Switchyard.Proofs.Text.Utf8
import Switchyard.Proofs.Client.ReplyOrigin
import Switchyard.Proofs.Control.EchoOutcomes
import Switchyard.Proofs.Echo.Remainder
import Switchyard.Proofs.Control.Teardown
import Switchyard.Net.Serving
import Switchyard.Proofs.Net.Occupancy
import Switchyard.Client.Fleet
import Switchyard.Proofs.Client.FleetTimers
import Switchyard.Proofs.Host.Capacity
