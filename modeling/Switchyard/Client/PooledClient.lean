import Switchyard.Client.Fleet
import Switchyard.Client.Pool

/-! # Clients

A client sends each message over a connection from its pool and gives the connection back as soon as
the message is queued, so that later messages follow on the same connection. Its connections are a
fleet that shares one scheduler. A client that is shut down sends no more, ends its connections, then
its timers, and closes its pool last.

A send goes in stages, and so does a shutdown. A stage is one look at the pool, one change of it under
its lock or one call of a connection. Between two of them everybody else can go on: another send, a
sweep, a shutdown, the tasks of the connections.
-/
namespace Switchyard.Client
open Net
set_option autoImplicit false

/-- Where the outcome of a message comes from. -/
inductive Reply where
  | failed (cause : Error)
  | pending (connection message : Nat)

/-- What a send does once it has let its connection go: it asks the pool again, or it is over. -/
inductive Sequel where
  | retry (m : Message)
  | done (reply : Reply)

/-- How far a send has come.

It has seen that the client is active (`entering`) and that the pool is open (`seeking`). It has taken
an idle connection (`trying`), or it waits for a connect (`connecting`) and has opened a connection
(`opened`). It holds a connection that is of use (`holding`), which has queued its message (`queued`).
On the way back it has seen that the pool is still open (`returning`) and that the connection is still
of use (`putting`). A connection that is let go loses its slot first (`dropping`) and is closed then
(`leaving`). A send that was given up has `ended` without a reply. -/
inductive Stage where
  | entering (m : Message)
  | seeking (m : Message)
  | trying (connection : Nat) (m : Message)
  | connecting (m : Message)
  | opened (connection : Nat) (m : Message)
  | holding (connection : Nat) (m : Message)
  | queued (connection message : Nat)
  | returning (connection message : Nat)
  | putting (connection message : Nat)
  | dropping (connection : Nat) (next : Sequel)
  | leaving (connection : Nat) (next : Sequel)
  | ended (reply : Option Reply)

def Sequel.stage : Sequel → Stage
  | retry m => .entering m
  | done reply => .ended (some reply)

namespace Stage

def reply? : Stage → Option Reply
  | ended reply => reply
  | _ => none

/-- A send that cannot go on by itself waits for a connect or has ended. -/
def isSettled : Stage → Bool
  | connecting _ | ended _ => true
  | _ => false

/-- How many more steps a send takes by itself at most, with so many idle connections in the pool. -/
def due (idle : Nat) : Stage → Nat
  | entering _ => 5 * idle + 3
  | seeking _ => 5 * idle + 2
  | trying .. => 5 * idle + 6
  | opened .. => 6
  | holding .. => 5
  | queued .. => 4
  | returning .. => 3
  | putting .. => 1
  | dropping _ (.retry _) => 5 * idle + 5
  | dropping _ (.done _) => 2
  | leaving _ (.retry _) => 5 * idle + 4
  | leaving _ (.done _) => 1
  | connecting _ | ended _ => 0

end Stage

/-- Connections are named by their position in the order in which they were opened, sends by their
position in the order in which they were begun. The connections in `doomed` have been taken out of the
pool and are still to be closed. `active`, `ending` and `drained` say how far a shutdown has come; the
stages between the last two are those of the scheduler and the pool. -/
structure PooledClient (γ : Type) extends Fleet γ where
  name : String
  address : String
  policy : PoolPolicy
  fresh : γ
  pool : Pool Nat
  sends : List Stage
  doomed : List Nat
  active : Bool
  ending : Bool
  drained : Bool
  metrics : Metrics

namespace PooledClient
variable {γ : Type}

def new (name address : String) (policy : PoolPolicy) (codec : Codec γ) (fresh : γ) :
    PooledClient γ :=
  { Fleet.new codec with
    name, address, policy, fresh, pool := .empty, sends := [], doomed := [], active := true
    ending := false, drained := false, metrics := [] }

/-- The clock of a client counts nanoseconds. -/
def ofSettings (s : Config.ClientSettings) (codec : Codec γ) (fresh : γ) : PooledClient γ :=
  .new s.name s.address (PoolPolicy.ofSettings s).inNanoseconds codec fresh

def describe (c : PooledClient γ) : String := s!"client {c.name} ({c.address})"

def inactive (c : PooledClient γ) : Error := .inactive c.describe

/-- A pooled connection is of use while it is active. -/
def isUsable (c : PooledClient γ) (i : Nat) : Bool := (c.connections[i]?).any (·.isActive)

def passes (c : PooledClient γ) (test : Bool) (i : Nat) : Bool := Pool.passes c.isUsable test i

def activeConnections (c : PooledClient γ) : Nat := (c.connections.filter (·.isActive)).length

def count (c : PooledClient γ) (outcome : BorrowOutcome) : PooledClient γ :=
  { c with metrics := c.metrics.count (.poolBorrows outcome) }

/-- Something happens to the connections or to their timers. -/
def happens (c : PooledClient γ) (event : Fleet.Event γ) : PooledClient γ :=
  { c with toFleet := c.toFleet.step event }

def destroy (c : PooledClient γ) (i : Nat) : PooledClient γ := c.happens (.on i .close)

/-- A connection opened by a client that is ending is at its end from the start. -/
def openConnection (c : PooledClient γ) : PooledClient γ := c.happens (.opened c.ending c.fresh)

/-! The stages of a send. -/

/-- Looks for a connection in the pool. -/
def seek (c : PooledClient γ) (m : Message) : Stage × PooledClient γ :=
  match c.pool.seek c.policy with
  | (.taken i, pool) => (.trying i m, { c with pool })
  | (.reserved, pool) => (.connecting m, { c with pool })
  | (.exhausted, pool) =>
    (.ended (some (.failed (.pool (.exhausted c.policy.maxTotal)))), { c with pool }.count .exhausted)

def queueOn (c : PooledClient γ) (i : Nat) (m : Message) : Stage × PooledClient γ :=
  match c.connections[i]? with
  | none => (.dropping i (.done (.failed c.inactive)), c)
  | some connection =>
    match connection.send m with
    | .ok (k, _) => (.queued i k, c.happens (.on i (.send m)))
    | .error cause => (.dropping i (.done (.failed cause)), c)

/-- What a send does next by itself. -/
def proceed (c : PooledClient γ) : Stage → Stage × PooledClient γ
  | .entering m =>
    (if c.pool.closed then .ended (some (.failed (.pool .closed))) else .seeking m, c)
  | .seeking m => c.seek m
  | .trying i m =>
    if c.passes c.policy.testOnBorrow i then (.holding i m, c.count .reused)
    else (.dropping i (.retry m), c)
  | .opened i m =>
    if c.passes c.policy.testOnCreate i then (.holding i m, c.count .created)
    else (.dropping i (.done (.failed (.pool .invalidOnCreate))), c)
  | .holding i m => c.queueOn i m
  | .queued i k =>
    (if c.pool.closed then .dropping i (.done (.pending i k)) else .returning i k, c)
  | .returning i k =>
    (if c.passes c.policy.testOnReturn i then .putting i k
      else .dropping i (.done (.pending i k)), c)
  | .putting i k => (.ended (some (.pending i k)), { c with pool := c.pool.put c.scheduler.now i })
  | .dropping i next => (.leaving i next, { c with pool := c.pool.releaseSlot })
  | .leaving i next => (next.stage, c.destroy i)
  | .connecting m => (.connecting m, c)
  | .ended reply => (.ended reply, c)

/-- The connect that a send waits for has ended. -/
def connected (c : PooledClient γ) (m : Message) : Except ConnectError Unit → Stage × PooledClient γ
  | .ok _ => (.opened c.connections.length m, c.openConnection)
  | .error cause =>
    (.ended (some (.failed (.pool (.create (.ofConnect cause))))),
      { c with pool := c.pool.releaseSlot }.count .createFailed)

def enter (c : PooledClient γ) (m : Message) : Stage :=
  if c.active then .entering m else .ended (some (.failed c.inactive))

def beginSend (c : PooledClient γ) (m : Message) : PooledClient γ :=
  { c with sends := c.sends ++ [c.enter m] }

/-- A send comes to its next stage. -/
def reach (c : PooledClient γ) (send : Nat) (next : Stage × PooledClient γ) : PooledClient γ :=
  { next.2 with sends := c.sends.set send next.1 }

def proceedSend (c : PooledClient γ) (send : Nat) : PooledClient γ :=
  match c.sends[send]? with
  | some stage => c.reach send (c.proceed stage)
  | none => c

def connectSend (c : PooledClient γ) (send : Nat) (result : Except ConnectError Unit) :
    PooledClient γ :=
  match c.sends[send]? with
  | some (.connecting m) => c.reach send (c.connected m result)
  | _ => c

/-- A send is given up while it waits for a connect. -/
def abandonSend (c : PooledClient γ) (send : Nat) : PooledClient γ :=
  match c.sends[send]? with
  | some (.connecting _) => c.reach send (.ended none, { c with pool := c.pool.releaseSlot })
  | _ => c

def outcome? (c : PooledClient γ) : Reply → Option Outcome
  | .failed cause => some (.error cause)
  | .pending i k => ((c.connections[i]?).bind (·.messages[k]?)).bind (·.outcome)

/-- The time of a message is over. -/
def fire (c : PooledClient γ) (key : Nat × Nat) : PooledClient γ :=
  let fired := c.happens (.fire key)
  match c.mayFire key, c.connections[key.1]? with
  | true, some connection => { fired with metrics := (connection.expire key.2 c.metrics).2.2 }
  | _, _ => fired

/-! What others do to the pool. -/

/-- The first half of a sweep. The connections in `late` end while it is under way, before it looks at
them. -/
def sweep (c : PooledClient γ) (late : List Nat) : PooledClient γ :=
  let (doomed, pool) :=
    c.pool.takeDoomed c.policy (fun i => c.isUsable i && !late.contains i) c.scheduler.now
  { c with pool, doomed := c.doomed ++ doomed }

/-- A connection that has been taken out of the pool is closed. -/
def dismiss (c : PooledClient γ) (i : Nat) : PooledClient γ :=
  if i ∈ c.doomed then { c with doomed := c.doomed.erase i }.destroy i else c

/-! The stages of a shutdown. Only the first one does anything. -/

/-- The connections are told to end. -/
def cancel (c : PooledClient γ) : PooledClient γ :=
  if c.active || c.ending then c
  else { c with
    ending := true
    toFleet := c.toFleet.run ((List.range c.connections.length).map (.on · .cancelParent)) }

/-- The connections have ended, or the wait for them is over. -/
def stopTimers (c : PooledClient γ) : PooledClient γ := if c.ending then c.happens .stop else c

/-- The timers have ended, or the wait for them is over. -/
def closePool (c : PooledClient γ) : PooledClient γ :=
  if c.scheduler.stopped then { c with pool.closed := true } else c

def drainPool (c : PooledClient γ) : PooledClient γ :=
  if c.pool.closed && !c.drained then
    let (idle, pool) := c.pool.drain
    { c with pool, doomed := c.doomed ++ idle, drained := true }
  else c

/-- Everything that can happen to a client. -/
inductive Event where
  | send (m : Message)
  | proceed (send : Nat)
  | connected (send : Nat) (result : Except ConnectError Unit)
  | abandon (send : Nat)
  | on (connection : Nat) (event : ConnectionEvent)
  | elapse (time : Duration)
  | fire (key : Nat × Nat)
  | lapse (key : Nat × Nat)
  | sweep (late : List Nat)
  | dismiss (connection : Nat)
  | beginShutdown
  | cancel
  | stopTimers
  | closePool
  | drainPool

def step (c : PooledClient γ) : Event → PooledClient γ
  | .send m => c.beginSend m
  | .proceed send => c.proceedSend send
  | .connected send result => c.connectSend send result
  | .abandon send => c.abandonSend send
  | .on i event => c.happens (.on i event)
  | .elapse time => c.happens (.elapse time)
  | .fire key => c.fire key
  | .lapse key => c.happens (.lapse key)
  | .sweep late => c.sweep late
  | .dismiss i => c.dismiss i
  | .beginShutdown => { c with active := false }
  | .cancel => c.cancel
  | .stopTimers => c.stopTimers
  | .closePool => c.closePool
  | .drainPool => c.drainPool

def run (c : PooledClient γ) (events : List Event) : PooledClient γ := events.foldl step c

/-! Turns. Whoever has one goes on until he waits for something. -/

def due (c : PooledClient γ) (send : Nat) : Nat :=
  ((c.sends[send]?).map (·.due c.pool.idle.length)).getD 0

/-- A send goes on by itself as far as it can. -/
def finish (c : PooledClient γ) (send : Nat) : PooledClient γ :=
  c.run (List.replicate (c.due send) (.proceed send))

/-- Nobody is in the middle of anything. Sends wait for their connects, and shutdowns for others. -/
def isSettled (c : PooledClient γ) : Bool :=
  c.sends.all (·.isSettled) && c.doomed.isEmpty && (c.active || c.ending)
    && (!c.pool.closed || c.drained)

/-- A shutdown goes on by itself as far as it can. -/
def resume (c : PooledClient γ) : PooledClient γ := c.run [.cancel, .drainPool]

/-- Everybody goes on by himself as far as he can. -/
def settle (c : PooledClient γ) : PooledClient γ :=
  let c := c.resume
  let c := (List.range c.sends.length).foldl finish c
  c.run (c.doomed.map .dismiss)

def turn (c : PooledClient γ) (event : Event) : PooledClient γ := (c.step event).settle

def inTurns (c : PooledClient γ) (events : List Event) : PooledClient γ := events.foldl turn c

/-- A send in a network that answers connects at once. -/
def send (c : PooledClient γ) (network : Network) (limit : Duration) (m : Message) :
    Reply × PooledClient γ :=
  let s := c.sends.length
  let c := c.inTurns [.send m, .connected s (connect network c.address limit)]
  (((c.sends[s]?).bind (·.reply?)).getD (.failed c.inactive), c)

/-- A shutdown whose connections and timers end at once. -/
def shutdown (c : PooledClient γ) : PooledClient γ :=
  if c.active then
    let c := c.turn .beginShutdown
    let c := c.inTurns ((List.range c.connections.length).map (.on · .turn))
    let c := c.turn .stopTimers
    let c := c.inTurns (c.scheduler.timers.map fun timer => .lapse timer.key)
    c.turn .closePool
  else c

end PooledClient
end Switchyard.Client
