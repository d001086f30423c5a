import Switchyard.Client.PooledClient
import Switchyard.Proofs.Client.FleetTimers

/-! # How a client goes on

Whatever happens to a client, its connections and timers go on as those of a fleet, by events of their
own, and new connections join. A shutdown comes in stages, each of which leaves something behind for the
next.
-/
namespace Switchyard.Client
open Net
set_option autoImplicit false

section Grown
variable {γ : Type} {codec : Codec γ} {fresh : γ} {cancelled : Bool} {xs xs' xs'' : List (Connection γ)}

/-- The connections of a client after some time. -/
structure Grown (codec : Codec γ) (fresh : γ) (cancelled : Bool) (xs xs' : List (Connection γ)) :
    Prop where
  length_le : xs.length ≤ xs'.length
  origin : ∀ i x', xs'[i]? = some x' →
    ∃ events, x' = ((xs[i]?).getD (Connection.new ⟨i + 1⟩ cancelled fresh)).run codec events

namespace Grown

theorem old (h : Grown codec fresh cancelled xs xs') {i : Nat} {x : Connection γ}
    (hx : xs[i]? = some x) : ∃ events, xs'[i]? = some (x.run codec events) := by
  have hLt : i < xs'.length :=
    Nat.lt_of_lt_of_le (List.getElem?_eq_some_iff.mp hx).1 h.length_le
  obtain ⟨events, hEvents⟩ := h.origin i _ (List.getElem?_eq_getElem hLt)
  rw [hx, Option.getD_some] at hEvents
  exact ⟨events, by rw [List.getElem?_eq_getElem hLt, hEvents]⟩

theorem refl (xs : List (Connection γ)) : Grown codec fresh cancelled xs xs := by
  constructor
  · exact Nat.le_refl _
  · intro i x hx
    exact ⟨[], by rw [hx]; rfl⟩

theorem trans (h : Grown codec fresh cancelled xs xs') (h' : Grown codec fresh cancelled xs' xs'') :
    Grown codec fresh cancelled xs xs'' := by
  constructor
  · exact Nat.le_trans h.length_le h'.length_le
  · intro i x'' hx''
    obtain ⟨later, rfl⟩ := h'.origin i x'' hx''
    cases hx' : xs'[i]? with
    | some x' =>
      obtain ⟨earlier, rfl⟩ := h.origin i x' hx'
      exact ⟨earlier ++ later, List.foldl_append.symm⟩
    | none =>
      have hx : xs[i]? = none := by
        rw [List.getElem?_eq_none_iff] at hx' ⊢
        exact Nat.le_trans h.length_le hx'
      exact ⟨later, by rw [hx]⟩

/-- Nobody joins. -/
theorem of_length_eq (hLength : xs'.length = xs.length)
    (h : ∀ (i : Nat) (x : Connection γ), xs[i]? = some x →
      ∃ events, xs'[i]? = some (x.run codec events)) :
    Grown codec fresh cancelled xs xs' := by
  constructor
  · exact Nat.le_of_eq hLength.symm
  · intro i x' hx'
    have hLt : i < xs.length := hLength ▸ (List.getElem?_eq_some_iff.mp hx').1
    obtain ⟨events, hEvents⟩ := h i _ (List.getElem?_eq_getElem hLt)
    refine ⟨events, ?_⟩
    rw [List.getElem?_eq_getElem hLt]
    exact Option.some.inj (hx'.symm.trans hEvents)

theorem modify (xs : List (Connection γ)) (i : Nat) (event : ConnectionEvent) :
    Grown codec fresh cancelled xs (xs.modify i fun x => x.step codec event) := by
  apply of_length_eq
  · exact List.length_modify ..
  · intro j x hx
    rw [List.getElem?_modify, hx]
    by_cases hAt : i = j
    · exact ⟨[event], by simp [hAt, Connection.run]⟩
    · exact ⟨[], by simp [hAt, Connection.run]⟩

theorem join (xs : List (Connection γ)) :
    Grown codec fresh cancelled xs (xs ++ [.new ⟨xs.length + 1⟩ cancelled fresh]) := by
  constructor
  · simp
  · intro i x hx
    refine ⟨[], ?_⟩
    rw [List.getElem?_append] at hx
    split at hx
    case isTrue =>
      rw [hx]
      rfl
    case isFalse hLast =>
      have hAt : i = xs.length := by
        have hLt := (List.getElem?_eq_some_iff.mp hx).1
        rw [List.length_singleton] at hLt
        omega
      subst hAt
      rw [Nat.sub_self] at hx
      cases hx
      rw [List.getElem?_eq_none (Nat.le_refl _)]
      rfl

/-- What is true of new connections and stays true is true of all. -/
theorem forall_mem (h : Grown codec fresh cancelled xs xs') {P : Connection γ → Prop}
    (hNew : ∀ id, P (.new id cancelled fresh)) (hStep : ∀ x event, P x → P (x.step codec event))
    (hOld : ∀ x ∈ xs, P x) : ∀ x ∈ xs', P x := by
  have hRun (events : List ConnectionEvent) (x : Connection γ) (hx : P x) :
      P (x.run codec events) := by
    induction events generalizing x with
    | nil => exact hx
    | cons event events ih => exact ih (x.step codec event) (hStep x event hx)
  intro x' hx'
  obtain ⟨i, hi⟩ := List.mem_iff_getElem?.mp hx'
  obtain ⟨events, rfl⟩ := h.origin i x' hi
  apply hRun
  cases hx : xs[i]? with
  | none => exact hNew _
  | some x => exact hOld x (List.mem_of_getElem? hx)

end Grown
end Grown

/-- Nothing but `close` closes a pool. -/
theorem Pool.closed_seek {α : Type} (policy : PoolPolicy) (pool : Pool α) :
    (pool.seek policy).2.closed = pool.closed := by
  unfold seek
  split
  · rfl
  · split <;> rfl

namespace Fleet
variable {γ : Type} {f : Fleet γ} {cancelled : Bool} {fresh : γ}

theorem run_append (f : Fleet γ) (first second : List (Event γ)) :
    f.run (first ++ second) = (f.run first).run second := List.foldl_append

/-- If an event opens a connection, it is in this state. -/
def Event.Fits (cancelled : Bool) (fresh : γ) : Event γ → Prop
  | .opened cancelled' fresh' => cancelled' = cancelled ∧ fresh' = fresh
  | _ => True

theorem grown_step {event : Event γ} (hFits : event.Fits cancelled fresh) :
    Grown f.codec fresh cancelled f.connections (f.step event).connections := by
  have hMoves := f.moves_step event
  generalize (f.step event).connections = xs at hMoves
  cases hMoves with
  | opened cancelled' fresh' =>
    obtain ⟨rfl, rfl⟩ := hFits
    exact .join f.connections
  | on i event => exact .modify f.connections i event
  | fire => exact .modify f.connections _ _
  | idle => exact .refl f.connections

theorem codec_run (f : Fleet γ) (events : List (Event γ)) : (f.run events).codec = f.codec := by
  induction events generalizing f with
  | nil => rfl
  | cons event events ih => exact (ih (f.step event)).trans (f.codec_step event)

theorem grown_run {events : List (Event γ)} (hFits : ∀ event ∈ events, event.Fits cancelled fresh) :
    Grown f.codec fresh cancelled f.connections (f.run events).connections := by
  induction events generalizing f with
  | nil => exact .refl f.connections
  | cons event events ih =>
    obtain ⟨hFirst, hRest⟩ := List.forall_mem_cons.mp hFits
    have hLater := ih (f := f.step event) hRest
    rw [codec_step] at hLater
    exact (grown_step hFirst).trans hLater

def Event.opens : Event γ → Bool
  | .opened .. => true
  | _ => false

theorem length_step {event : Event γ} (hNone : event.opens = false) :
    (f.step event).connections.length = f.connections.length := by
  have hMoves := f.moves_step event
  generalize (f.step event).connections = xs at hMoves
  cases hMoves with
  | opened => cases hNone
  | on | fire => exact List.length_modify ..
  | idle => rfl

theorem length_run {events : List (Event γ)} (hNone : ∀ event ∈ events, event.opens = false) :
    (f.run events).connections.length = f.connections.length := by
  induction events generalizing f with
  | nil => rfl
  | cons event events ih =>
    obtain ⟨hFirst, hRest⟩ := List.forall_mem_cons.mp hNone
    exact (ih (f := f.step event) hRest).trans (length_step hFirst)

/-- Nothing but a stop stops a scheduler. -/
theorem stopped_step_of_ne {event : Event γ} (hOther : event ≠ .stop) :
    (f.step event).scheduler.stopped = f.scheduler.stopped := by
  cases event with
  | on i event => exact (f.connections_startTimer i event).2.2
  | fire key | lapse key =>
    simp only [step]
    split <;> rfl
  | opened | elapse => rfl
  | stop => exact absurd rfl hOther

theorem stopped_run_of_ne {events : List (Event γ)} (hOthers : ∀ event ∈ events, event ≠ .stop) :
    (f.run events).scheduler.stopped = f.scheduler.stopped := by
  induction events generalizing f with
  | nil => rfl
  | cons event events ih =>
    obtain ⟨hFirst, hRest⟩ := List.forall_mem_cons.mp hOthers
    exact (ih (f := f.step event) hRest).trans (stopped_step_of_ne hFirst)

/-- The same happens to one connection after the other. -/
theorem getElem?_run_on (f : Fleet γ) (event : ConnectionEvent) (n i : Nat) :
    (f.run ((List.range n).map (.on · event))).connections[i]? =
      (f.connections[i]?).map fun x => if i < n then x.step f.codec event else x := by
  induction n with
  | zero => simp [run]
  | succ n ih =>
    have hLast (g : Fleet γ) : (g.step (.on n event)).connections = (g.onConnection n event).connections := by
      obtain ⟨hConnections, hCodec, -⟩ := g.connections_startTimer n event
      change (g.startTimer n event |>.onConnection n event).connections = _
      rw [onConnection, hConnections, hCodec]
      rfl
    rw [List.range_succ, List.map_append, run_append]
    change ((f.run _).step (.on n event)).connections[i]? = _
    rw [hLast, getElem?_onConnection, ih, codec_run, Option.map_map]
    refine Option.map_congr fun x _ => ?_
    by_cases hAt : n = i
    · simp [hAt]
    · have hSame : i < n + 1 ↔ i < n := by omega
      simp [hAt, hSame]

end Fleet

namespace PooledClient
variable {γ : Type} {c c' : PooledClient γ}

/-- What a client was made of. -/
def setup (c : PooledClient γ) : String × String × PoolPolicy × Codec γ × γ :=
  (c.name, c.address, c.policy, c.codec, c.fresh)

/-- How far a shutdown has come. -/
def phase (c : PooledClient γ) : Bool × Bool × Bool × Bool × Bool :=
  (c.active, c.ending, c.scheduler.stopped, c.pool.closed, c.drained)

/-- The connections and timers of a client have gone on, and whatever connection it has opened is in
the state in which it opens them. -/
def Leads (c c' : PooledClient γ) : Prop :=
  ∃ moves, c'.toFleet = c.toFleet.run moves ∧ ∀ move ∈ moves, move.Fits c.ending c.fresh

theorem Leads.grown (h : c.Leads c') :
    Grown c.codec c.fresh c.ending c.connections c'.connections := by
  obtain ⟨moves, hFleet, hFits⟩ := h
  rw [hFleet]
  exact Fleet.grown_run hFits

theorem fire_eq (c : PooledClient γ) (key : Nat × Nat) :
    ∃ metrics, c.fire key = { c.happens (.fire key) with metrics } := by
  unfold fire
  dsimp only
  split <;> exact ⟨_, rfl⟩

/-- What goes on in a client beside its shutdown. -/
structure Serves (c c' : PooledClient γ) : Prop where
  leads : c.Leads c'
  setup_eq : c'.setup = c.setup
  phase_eq : c'.phase = c.phase

namespace Serves

theorem refl (c : PooledClient γ) : Serves c c := ⟨⟨[], rfl, nofun⟩, rfl, rfl⟩

theorem count (c : PooledClient γ) (outcome : BorrowOutcome) : Serves c (c.count outcome) :=
  ⟨⟨[], rfl, nofun⟩, rfl, rfl⟩

theorem happens (c : PooledClient γ) {event : Fleet.Event γ} (hFits : event.Fits c.ending c.fresh)
    (hOther : event ≠ .stop) : Serves c (c.happens event) where
  leads := ⟨[event], rfl, by simpa using hFits⟩
  setup_eq := by
    have hCodec : (c.happens event).codec = c.codec := c.toFleet.codec_step event
    simp only [setup, hCodec]
    rfl
  phase_eq := by
    have hStopped : (c.happens event).scheduler.stopped = c.scheduler.stopped :=
      Fleet.stopped_step_of_ne hOther
    simp only [phase, hStopped]
    rfl

theorem on (c : PooledClient γ) (i : Nat) (event : ConnectionEvent) :
    Serves c (c.happens (.on i event)) := happens c trivial nofun

theorem seek (c : PooledClient γ) (m : Message) : Serves c (c.seek m).2 := by
  unfold PooledClient.seek
  cases hSought : c.pool.seek c.policy with
  | mk sought pool =>
    have hClosed : pool.closed = c.pool.closed := by
      simpa only [hSought] using Pool.closed_seek c.policy c.pool
    have hPhase : ({ c with pool } : PooledClient γ).phase = c.phase := by
      simp only [phase, hClosed]
    cases sought with
    | taken | reserved | exhausted => exact ⟨⟨[], rfl, nofun⟩, rfl, hPhase⟩

theorem queueOn (c : PooledClient γ) (i : Nat) (m : Message) : Serves c (c.queueOn i m).2 := by
  unfold PooledClient.queueOn
  split
  · exact .refl c
  · split
    · exact .on c i _
    · exact .refl c

theorem proceed (c : PooledClient γ) (stage : Stage) : Serves c (c.proceed stage).2 := by
  cases stage with
  | seeking m => exact seek c m
  | holding i m => exact queueOn c i m
  | leaving i next => exact on c i .close
  | trying i m | opened i m =>
    simp only [PooledClient.proceed]
    split
    · exact count c _
    · exact .refl c
  | putting | dropping => exact ⟨⟨[], rfl, nofun⟩, rfl, rfl⟩
  | entering | connecting | queued | returning | ended => exact .refl c

theorem connected (c : PooledClient γ) (m : Message) (result : Except ConnectError Unit) :
    Serves c (c.connected m result).2 := by
  cases result with
  | error cause => exact ⟨⟨[], rfl, nofun⟩, rfl, rfl⟩
  | ok _ => exact happens c ⟨rfl, rfl⟩ nofun

theorem reach {next : Stage × PooledClient γ} (h : Serves c next.2) (send : Nat) :
    Serves c (c.reach send next) := ⟨h.leads, h.setup_eq, h.phase_eq⟩

theorem proceedSend (c : PooledClient γ) (send : Nat) : Serves c (c.proceedSend send) := by
  unfold PooledClient.proceedSend
  split
  · exact (proceed c _).reach send
  · exact .refl c

theorem connectSend (c : PooledClient γ) (send : Nat) (result : Except ConnectError Unit) :
    Serves c (c.connectSend send result) := by
  unfold PooledClient.connectSend
  split
  · exact (connected c _ result).reach send
  · exact .refl c

theorem abandonSend (c : PooledClient γ) (send : Nat) : Serves c (c.abandonSend send) := by
  unfold PooledClient.abandonSend
  split
  · exact ⟨⟨[], rfl, nofun⟩, rfl, rfl⟩
  · exact .refl c

theorem fire (c : PooledClient γ) (key : Nat × Nat) : Serves c (c.fire key) := by
  have hFired : Serves c (c.happens (.fire key)) := happens c trivial nofun
  obtain ⟨metrics, hFire⟩ := c.fire_eq key
  rw [hFire]
  exact ⟨hFired.leads, hFired.setup_eq, hFired.phase_eq⟩

theorem dismiss (c : PooledClient γ) (i : Nat) : Serves c (c.dismiss i) := by
  unfold PooledClient.dismiss
  split
  · have hClosed := on c i .close
    exact ⟨hClosed.leads, hClosed.setup_eq, hClosed.phase_eq⟩
  · exact .refl c

end Serves

/-- Everything that a step can be. -/
inductive Changes (c : PooledClient γ) : PooledClient γ → Prop
  | serves {c' : PooledClient γ} (h : Serves c c') : Changes c c'
  | begun : Changes c { c with active := false }
  | cancelled (hActive : c.active = false) : Changes c { c with
      ending := true
      toFleet := c.toFleet.run ((List.range c.connections.length).map (.on · .cancelParent)) }
  | stopped (hEnding : c.ending = true) : Changes c (c.happens .stop)
  | closed (hStopped : c.scheduler.stopped = true) : Changes c { c with pool.closed := true }
  | drained (hClosed : c.pool.closed = true) : Changes c { c with
      pool := c.pool.drain.2, doomed := c.doomed ++ c.pool.drain.1, drained := true }

theorem changes_step (c : PooledClient γ) (event : Event) : Changes c (c.step event) := by
  have hSame : Changes c c := .serves (.refl c)
  cases event with
  | send m => exact .serves ⟨⟨[], rfl, nofun⟩, rfl, rfl⟩
  | proceed send => exact .serves (.proceedSend c send)
  | connected send result => exact .serves (.connectSend c send result)
  | abandon send => exact .serves (.abandonSend c send)
  | on i event => exact .serves (.on c i event)
  | elapse time => exact .serves (.happens c trivial nofun)
  | fire key => exact .serves (.fire c key)
  | lapse key => exact .serves (.happens c trivial nofun)
  | sweep late => exact .serves ⟨⟨[], rfl, nofun⟩, rfl, rfl⟩
  | dismiss i => exact .serves (.dismiss c i)
  | beginShutdown => exact .begun
  | cancel =>
    change Changes c c.cancel
    unfold cancel
    split
    case isTrue => exact hSame
    case isFalse hFirst => exact .cancelled (by simp_all)
  | stopTimers =>
    change Changes c c.stopTimers
    unfold stopTimers
    split
    case isTrue hEnding => exact .stopped hEnding
    case isFalse => exact hSame
  | closePool =>
    change Changes c c.closePool
    unfold closePool
    split
    case isTrue hStopped => exact .closed hStopped
    case isFalse => exact hSame
  | drainPool =>
    change Changes c c.drainPool
    unfold drainPool
    split
    case isTrue hClosed =>
      rw [Bool.and_eq_true] at hClosed
      exact .drained hClosed.1
    case isFalse => exact hSame

namespace Changes

theorem leads (h : Changes c c') : c.Leads c' := by
  cases h with
  | serves h => exact h.leads
  | begun | closed | drained => exact ⟨[], rfl, nofun⟩
  | cancelled =>
    refine ⟨_, rfl, fun move hMove => ?_⟩
    obtain ⟨i, -, rfl⟩ := List.mem_map.mp hMove
    trivial
  | stopped => exact ⟨[.stop], rfl, by simp [Fleet.Event.Fits]⟩

theorem grown (h : Changes c c') : Grown c.codec c.fresh c.ending c.connections c'.connections :=
  h.leads.grown

theorem setup_eq (h : Changes c c') : c'.setup = c.setup := by
  cases h with
  | serves h => exact h.setup_eq
  | begun | closed | drained | stopped => rfl
  | cancelled =>
    simp only [setup, Fleet.codec_run]

end Changes

/-- What leaves the sends and the pool as they are. -/
structure Rests (c c' : PooledClient γ) : Prop where
  sends_eq : c'.sends = c.sends
  idle_eq : c'.pool.idle = c.pool.idle
  borrowed_eq : c'.pool.borrowed = c.pool.borrowed
  doomed_eq : c'.doomed = c.doomed
  length_eq : c'.connections.length = c.connections.length

namespace Rests

theorem refl (c : PooledClient γ) : Rests c c := ⟨rfl, rfl, rfl, rfl, rfl⟩

theorem happens (c : PooledClient γ) {event : Fleet.Event γ} (hNone : event.opens = false) :
    Rests c (c.happens event) := ⟨rfl, rfl, rfl, rfl, Fleet.length_step hNone⟩

theorem fire (c : PooledClient γ) (key : Nat × Nat) : Rests c (c.fire key) := by
  obtain ⟨metrics, hFire⟩ := c.fire_eq key
  rw [hFire]
  exact ⟨rfl, rfl, rfl, rfl, Fleet.length_step rfl⟩

theorem cancel (c : PooledClient γ) : Rests c c.cancel := by
  unfold PooledClient.cancel
  split
  case isTrue => exact refl c
  case isFalse =>
    refine ⟨rfl, rfl, rfl, rfl, Fleet.length_run fun move hMove => ?_⟩
    obtain ⟨i, -, rfl⟩ := List.mem_map.mp hMove
    rfl

theorem stopTimers (c : PooledClient γ) : Rests c c.stopTimers := by
  unfold PooledClient.stopTimers
  split
  · exact happens c rfl
  · exact refl c

theorem closePool (c : PooledClient γ) : Rests c c.closePool := by
  unfold PooledClient.closePool
  split
  · exact ⟨rfl, rfl, rfl, rfl, rfl⟩
  · exact refl c

end Rests

/-- Everything that a step can do to the sends and to the pool. -/
inductive Acts (c : PooledClient γ) : PooledClient γ → Prop
  | begun (m : Message) : Acts c (c.beginSend m)
  | proceeded {send : Nat} {stage : Stage} (hStage : c.sends[send]? = some stage) :
    Acts c (c.reach send (c.proceed stage))
  | connected {send : Nat} {m : Message} (hStage : c.sends[send]? = some (.connecting m))
    (result : Except ConnectError Unit) : Acts c (c.reach send (c.connected m result))
  | abandoned {send : Nat} {m : Message} (hStage : c.sends[send]? = some (.connecting m)) :
    Acts c (c.reach send (.ended none, { c with pool := c.pool.releaseSlot }))
  | swept (late : List Nat) : Acts c (c.sweep late)
  | dismissed {i : Nat} (hDoomed : i ∈ c.doomed) :
    Acts c ({ c with doomed := c.doomed.erase i }.destroy i)
  | drained : Acts c { c with
      pool := c.pool.drain.2, doomed := c.doomed ++ c.pool.drain.1, drained := true }
  | rests {c' : PooledClient γ} (h : Rests c c') : Acts c c'

theorem acts_step (c : PooledClient γ) (event : Event) : Acts c (c.step event) := by
  have hSame : Acts c c := .rests (.refl c)
  cases event with
  | send m => exact .begun m
  | proceed send =>
    change Acts c (c.proceedSend send)
    unfold proceedSend
    split
    case h_1 hStage => exact .proceeded hStage
    case h_2 => exact hSame
  | connected send result =>
    change Acts c (c.connectSend send result)
    unfold connectSend
    split
    case h_1 hStage => exact .connected hStage result
    case h_2 => exact hSame
  | abandon send =>
    change Acts c (c.abandonSend send)
    unfold abandonSend
    split
    case h_1 hStage => exact .abandoned hStage
    case h_2 => exact hSame
  | sweep late => exact .swept late
  | dismiss i =>
    change Acts c (c.dismiss i)
    unfold dismiss
    split
    case isTrue hDoomed => exact .dismissed hDoomed
    case isFalse => exact hSame
  | drainPool =>
    change Acts c c.drainPool
    unfold drainPool
    split
    case isTrue => exact .drained
    case isFalse => exact hSame
  | on i event => exact .rests (.happens c rfl)
  | elapse time => exact .rests (.happens c rfl)
  | lapse key => exact .rests (.happens c rfl)
  | fire key => exact .rests (.fire c key)
  | beginShutdown => exact .rests ⟨rfl, rfl, rfl, rfl, rfl⟩
  | cancel => exact .rests (.cancel c)
  | stopTimers => exact .rests (.stopTimers c)
  | closePool => exact .rests (.closePool c)

theorem setup_run (c : PooledClient γ) (events : List Event) : (c.run events).setup = c.setup := by
  induction events generalizing c with
  | nil => rfl
  | cons event events ih => exact (ih (c.step event)).trans (c.changes_step event).setup_eq

theorem codec_run (c : PooledClient γ) (events : List Event) : (c.run events).codec = c.codec :=
  congrArg (·.2.2.2.1) (c.setup_run events)

theorem run_append (c : PooledClient γ) (past more : List Event) :
    c.run (past ++ more) = (c.run past).run more := List.foldl_append ..

/-- What happens to a client is a run of its fleet. -/
theorem exists_toFleet_run (c : PooledClient γ) (events : List Event) :
    ∃ moves, (c.run events).toFleet = c.toFleet.run moves := by
  induction events generalizing c with
  | nil => exact ⟨[], rfl⟩
  | cons event events ih =>
    obtain ⟨first, hFirst, -⟩ := (c.changes_step event).leads
    obtain ⟨rest, hRest⟩ := ih (c.step event)
    refine ⟨first ++ rest, ?_⟩
    rw [Fleet.run_append, ← hFirst]
    exact hRest

/-- The timers of a client follow its messages as those of any fleet do. -/
theorem exists_sound (s : Config.ClientSettings) (codec : Codec γ) (fresh : γ) (events : List Event) :
    ∃ begun, ((ofSettings s codec fresh).run events).toFleet.Sound begun := by
  obtain ⟨moves, hFleet⟩ := (ofSettings s codec fresh).exists_toFleet_run events
  rw [hFleet]
  exact ⟨_, (Fleet.Sound.new codec).run moves⟩

theorem connection_run (c : PooledClient γ) {i : Nat} {x : Connection γ}
    (hx : c.connections[i]? = some x) (events : List Event) :
    ∃ moves, (c.run events).connections[i]? = some (x.run c.codec moves) := by
  induction events generalizing c x with
  | nil => exact ⟨[], hx⟩
  | cons event events ih =>
    obtain ⟨first, hFirst⟩ := (c.changes_step event).grown.old hx
    obtain ⟨rest, hRest⟩ := ih (c.step event) hFirst
    rw [show (c.step event).codec = c.codec from c.codec_run [event]] at hRest
    refine ⟨first ++ rest, ?_⟩
    rw [Connection.run, List.foldl_append]
    exact hRest

/-- The order that a client keeps, and the stages that its shutdown comes in. -/
structure Orderly (c : PooledClient γ) : Prop where
  sound : ∀ x ∈ c.connections, x.handle.closed = true → x.handle.closing = true
  attends : ∀ x ∈ c.connections, x.Attends
  inactive : c.ending = true → c.active = false
  cancelled : c.ending = true → ∀ x ∈ c.connections, x.handle.closing = true
  stopped : c.scheduler.stopped = true → c.ending = true
  closed : c.pool.closed = true → c.scheduler.stopped = true
  drained : c.drained = true → c.pool.closed = true

namespace Orderly

theorem changes (h : Orderly c) (hChanges : Changes c c') : Orderly c' := by
  have hSound : ∀ x ∈ c'.connections, x.handle.closed = true → x.handle.closing = true := by
    apply hChanges.grown.forall_mem _ _ h.sound
    · intro id hClosed
      cases hClosed
    · intro x event hx
      exact (x.isLater_step c.codec event).sound hx
  have hAttends : ∀ x ∈ c'.connections, x.Attends := by
    apply hChanges.grown.forall_mem _ _ h.attends
    · intro id
      exact Connection.attends_new id _ _
    · intro x event hx
      exact hx.step event
  have hCancelled (hEnding : c.ending = true) : ∀ x ∈ c'.connections, x.handle.closing = true := by
    apply hChanges.grown.forall_mem _ _ (h.cancelled hEnding)
    · intro id
      exact hEnding
    · intro x event hx
      exact (x.isLater_step c.codec event).closing hx
  cases hChanges with
  | serves hServes =>
    obtain ⟨hActive, hEnding, hStopped, hClosed, hDrained⟩ :
        c'.active = c.active ∧ c'.ending = c.ending ∧
          c'.scheduler.stopped = c.scheduler.stopped ∧ c'.pool.closed = c.pool.closed ∧
          c'.drained = c.drained := by
      simpa only [phase, Prod.mk.injEq] using hServes.phase_eq
    constructor
    case sound => exact hSound
    case attends => exact hAttends
    case inactive => simpa only [hEnding, hActive] using h.inactive
    case cancelled =>
      intro hEnds
      exact hCancelled (hEnding.symm.trans hEnds)
    case stopped => simpa only [hStopped, hEnding] using h.stopped
    case closed => simpa only [hClosed, hStopped] using h.closed
    case drained => simpa only [hDrained, hClosed] using h.drained
  | begun => exact ⟨hSound, hAttends, fun _ => rfl, hCancelled, h.stopped, h.closed, h.drained⟩
  | cancelled hActive =>
    refine ⟨hSound, hAttends, fun _ => hActive, ?_, fun _ => rfl, ?_, h.drained⟩
    · intro _ x' hx'
      obtain ⟨i, hi⟩ := List.mem_iff_getElem?.mp hx'
      rw [Fleet.getElem?_run_on] at hi
      obtain ⟨x, hx, rfl⟩ := Option.map_eq_some_iff.mp hi
      rw [if_pos (List.getElem?_eq_some_iff.mp hx).1]
      rfl
    · intro hClosed
      refine (Fleet.stopped_run_of_ne fun move hMove => ?_).trans (h.closed hClosed)
      obtain ⟨i, -, rfl⟩ := List.mem_map.mp hMove
      exact nofun
  | stopped hEnding =>
    exact ⟨hSound, hAttends, h.inactive, hCancelled, fun _ => hEnding, fun _ => rfl, h.drained⟩
  | closed hStopped =>
    exact ⟨hSound, hAttends, h.inactive, hCancelled, h.stopped, fun _ => hStopped, fun _ => rfl⟩
  | drained hClosed =>
    exact ⟨hSound, hAttends, h.inactive, hCancelled, h.stopped, h.closed, fun _ => hClosed⟩

theorem start (s : Config.ClientSettings) (codec : Codec γ) (fresh : γ) :
    Orderly (.ofSettings s codec fresh) where
  sound := nofun
  attends := nofun
  inactive := nofun
  cancelled := nofun
  stopped := nofun
  closed := nofun
  drained := nofun

theorem step (h : Orderly c) (event : Event) : Orderly (c.step event) :=
  h.changes (c.changes_step event)

theorem run (h : Orderly c) (events : List Event) : Orderly (c.run events) := by
  induction events generalizing c with
  | nil => exact h
  | cons event events ih => exact ih (h.step event)

end Orderly

end PooledClient
end Switchyard.Client
