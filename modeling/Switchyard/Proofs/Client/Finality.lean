import Switchyard.Proofs.Client.Slots

/-! # The end of a client

A shutdown leaves behind connections that are over, a scheduler that starts nothing and a closed pool, and
nothing that happens later brings any of it back. A connect that is late opens a connection that is over
from the start, so the check on creation fails its send. The pool is empty from then on, except for what is
put into it by sends that had looked at it just before it was closed.
-/
namespace Switchyard.Client
open Net
set_option autoImplicit false

def Reply.message? : Reply → Option (Nat × Nat)
  | failed _ => none
  | pending i k => some (i, k)

def Sequel.message? : Sequel → Option (Nat × Nat)
  | retry _ => none
  | done reply => reply.message?

/-- Where a send has queued its message. -/
def Stage.message? : Stage → Option (Nat × Nat)
  | queued i k | returning i k | putting i k => some (i, k)
  | dropping _ next | leaving _ next => next.message?
  | ended reply => reply.bind Reply.message?
  | entering _ | seeking _ | trying .. | connecting _ | opened .. | holding .. => none

/-- Whether a send is putting a connection back into a pool that it has seen open. -/
def Stage.isReturning : Stage → Bool
  | returning .. | putting .. => true
  | _ => false

namespace Connection
variable {γ : Type} {codec : Codec γ} {x : Connection γ}

/-- Nothing is due on a connection any more, and nothing will be. -/
def IsOver (x : Connection γ) : Prop :=
  x.isActive = false ∧ ∀ (k : Nat) (m : Message), x.messages[k]? = some m → m.outcome ≠ none

theorem isOver_new (id : ConnectionId) (state : γ) : (Connection.new id true state).IsOver := by
  constructor
  · rfl
  · intro k m hMessage
    cases hMessage

theorem Attends.isOver (h : x.Attends) (hEnded : x.hasEnded = true) : x.IsOver := by
  constructor
  · exact isActive_eq_false_iff.mpr (.inr hEnded)
  · intro k m hMessage
    exact h.isCompleted hEnded hMessage

theorem IsOver.step (h : x.IsOver) (event : ConnectionEvent) : (x.step codec event).IsOver := by
  obtain ⟨hInactive, hTold⟩ := h
  constructor
  · exact isActive_step codec hInactive event
  · intro k m' hMessage'
    have hContents := contents_step_of_inactive codec hInactive event
    have hLength : (x.step codec event).messages.length = x.messages.length := by
      simpa [contents] using congrArg List.length hContents
    have hLt : k < x.messages.length := hLength ▸ (List.getElem?_eq_some_iff.mp hMessage').1
    have hMessage := List.getElem?_eq_getElem hLt
    have hCompleted := hTold k _ hMessage
    have hSame := getElem?_step_of_completed codec event hMessage hCompleted
    obtain rfl : x.messages[k] = m' := Option.some.inj (hSame.symm.trans hMessage')
    exact hCompleted

/-- Nothing is begun on a connection that is inactive. -/
theorem taken?_of_inactive (hInactive : x.isActive = false) : x.taken? = none := by
  cases hTaken : x.taken? with
  | none => rfl
  | some k =>
    obtain ⟨m, hNext⟩ := taken?_eq_some.mp hTaken
    obtain ⟨hOpen, hActive, -⟩ := hNext ▸ x.allowed_next
    exact absurd ⟨hOpen, hActive⟩ (not_open_of_inactive hInactive)

end Connection

namespace Fleet
variable {γ : Type} {f : Fleet γ} {fresh : γ}

/-- A timer starts only when a message is begun. -/
theorem timers_step_sublist {event : Event γ} (hNone : f.begun? event = none) :
    (f.step event).scheduler.timers.Sublist f.scheduler.timers := by
  cases event with
  | on i event =>
    change (f.startTimer i event).scheduler.timers.Sublist _
    unfold startTimer
    split
    case h_2 => exact .refl _
    case h_1 k timeout hTimer =>
      obtain ⟨x, hx, hTimer⟩ := Option.bind_eq_some_iff.mp hTimer
      have hTaken : x.taken? = some k := by
        have hKey := x.timer?_eq
        rw [hTimer, Option.map_some] at hKey
        exact (Option.filter_eq_some_iff.mp hKey.symm).1
      rw [begun?, hx, Option.bind_some, hTaken] at hNone
      cases hNone
  | fire key | lapse key =>
    simp only [step]
    split
    · exact List.filter_sublist
    · exact .refl _
  | opened | elapse | stop => exact .refl _

theorem timers_run_sublist (hInactive : ∀ x ∈ f.connections, x.isActive = false)
    {events : List (Event γ)} (hFits : ∀ event ∈ events, event.Fits true fresh) :
    (f.run events).scheduler.timers.Sublist f.scheduler.timers := by
  induction events generalizing f with
  | nil => exact .refl _
  | cons event events ih =>
    obtain ⟨hFirst, hRest⟩ := List.forall_mem_cons.mp hFits
    have hNone : f.begun? event = none := by
      rw [Option.eq_none_iff_forall_ne_some]
      intro key hBegun
      obtain ⟨-, x, hx, hTaken⟩ := begun?_eq_some.mp hBegun
      rw [Connection.taken?_of_inactive (hInactive x (List.mem_of_getElem? hx))] at hTaken
      cases hTaken
    have hLater : ∀ x ∈ (f.step event).connections, x.isActive = false := by
      apply (grown_step (f := f) hFirst).forall_mem _ _ hInactive
      · intro id
        rfl
      · intro x event hx
        exact Connection.isActive_step f.codec hx event
    exact (ih hLater hRest).trans (timers_step_sublist hNone)

end Fleet

namespace PooledClient
variable {γ : Type} {c c' : PooledClient γ}

/-- The stages of a shutdown that are over stay over. -/
structure Remains (c c' : PooledClient γ) : Prop where
  inactive : c.active = false → c'.active = false
  ending : c.ending = true → c'.ending = true
  stopped : c.scheduler.stopped = true → c'.scheduler.stopped = true
  closed : c.pool.closed = true → c'.pool.closed = true
  drained : c.drained = true → c'.drained = true

namespace Remains

theorem of_changes (h : Changes c c') : Remains c c' := by
  cases h with
  | serves h =>
    obtain ⟨hActive, hEnding, hStopped, hClosed, hDrained⟩ := by
      simpa only [phase, Prod.mk.injEq] using h.phase_eq
    exact ⟨hActive.trans, hEnding.trans, hStopped.trans, hClosed.trans, hDrained.trans⟩
  | begun => exact ⟨fun _ => rfl, id, id, id, id⟩
  | cancelled hActive =>
    refine ⟨id, fun _ => rfl, fun hStopped => ?_, id, id⟩
    refine (Fleet.stopped_run_of_ne fun move hMove => ?_).trans hStopped
    obtain ⟨i, -, rfl⟩ := List.mem_map.mp hMove
    simp
  | stopped => exact ⟨id, id, fun _ => rfl, id, id⟩
  | closed => exact ⟨id, id, id, fun _ => rfl, id⟩
  | drained => exact ⟨id, id, id, id, fun _ => rfl⟩

theorem run (c : PooledClient γ) (events : List Event) : Remains c (c.run events) := by
  induction events generalizing c with
  | nil => exact ⟨id, id, id, id, id⟩
  | cons event events ih =>
    have hFirst := of_changes (c.changes_step event)
    have hRest := ih (c.step event)
    exact ⟨hRest.inactive ∘ hFirst.inactive, hRest.ending ∘ hFirst.ending,
      hRest.stopped ∘ hFirst.stopped, hRest.closed ∘ hFirst.closed, hRest.drained ∘ hFirst.drained⟩

end Remains

/-- What the one who shuts a client down does, from its first stage to its last. -/
def shutdownStages : List Event := [.beginShutdown, .cancel, .stopTimers, .closePool, .drainPool]

/-- Before a stage anything can happen that does not undo the one before it. -/
theorem exists_run_step {stage : Event} {rest events : List Event} (h : (stage :: rest).Sublist events)
    {Q : PooledClient γ → Prop} (hStep : ∀ before, Q ((c.run before).step stage)) :
    ∃ c' later, Q c' ∧ rest.Sublist later ∧ c.run events = c'.run later := by
  obtain ⟨before, after, rfl, hStage, hRest⟩ := List.cons_sublist_iff.mp h
  obtain ⟨earlier, between, rfl⟩ := List.append_of_mem hStage
  refine ⟨_, between ++ after, hStep earlier, hRest.trans (List.sublist_append_right ..), ?_⟩
  rw [List.append_assoc, run_append]
  rfl

/-- A shutdown that goes through all its stages comes to its end, whatever happens between them. -/
theorem drained_of_shutdownStages {events : List Event} (h : shutdownStages.Sublist events)
    (c : PooledClient γ) : (c.run events).drained = true := by
  obtain ⟨begun, events, hInactive, h, hRun⟩ :=
    exists_run_step (c := c) h (Q := fun c => c.active = false) fun _ => rfl
  rw [hRun]
  obtain ⟨told, events, hEnding, h, hRun⟩ :=
    exists_run_step (c := begun) h (Q := fun c => c.ending = true) fun before => by
      have hActive := (Remains.run begun before).inactive hInactive
      change (cancel _).ending = true
      unfold cancel
      split <;> simp_all
  rw [hRun]
  obtain ⟨halted, events, hStopped, h, hRun⟩ :=
    exists_run_step (c := told) h (Q := fun c => c.scheduler.stopped = true) fun before => by
      change (stopTimers _).scheduler.stopped = true
      rw [stopTimers, if_pos ((Remains.run told before).ending hEnding)]
      rfl
  rw [hRun]
  obtain ⟨shut, events, hClosed, h, hRun⟩ :=
    exists_run_step (c := halted) h (Q := fun c => c.pool.closed = true) fun before => by
      change (closePool _).pool.closed = true
      rw [closePool, if_pos ((Remains.run halted before).stopped hStopped)]
  rw [hRun]
  obtain ⟨emptied, events, hDrained, -, hRun⟩ :=
    exists_run_step (c := shut) h (Q := fun c => c.drained = true) fun before => by
      have hClosed := (Remains.run shut before).closed hClosed
      change (drainPool _).drained = true
      unfold drainPool
      split <;> simp_all
  rw [hRun]
  exact (Remains.run emptied events).drained hDrained

/-- What becomes of a borrow whose connect ends after all. -/
def late : Except ConnectError Unit → PoolError
  | .error cause => .create (.ofConnect cause)
  | .ok _ => .invalidOnCreate

/-- A client that has been told to end and whose connections have all ended. -/
structure Over (c : PooledClient γ) : Prop where
  orderly : c.Orderly
  sound : ∃ begun, c.toFleet.Sound begun
  ending : c.ending = true
  connections : ∀ x ∈ c.connections, x.IsOver

namespace Over

theorem start {s : Config.ClientSettings} {codec : Codec γ} {fresh : γ} {events : List Event}
    (hDrained : ((ofSettings s codec fresh).run events).drained = true)
    (hEnded : ((ofSettings s codec fresh).run events).allEnded = true) :
    Over ((ofSettings s codec fresh).run events) := by
  have hOrderly := (Orderly.start s codec fresh).run events
  constructor
  case orderly => exact hOrderly
  case sound => exact exists_sound s codec fresh events
  case ending => exact hOrderly.stopped (hOrderly.closed (hOrderly.drained hDrained))
  case connections =>
    intro x hx
    exact (hOrderly.attends x hx).isOver (List.all_eq_true.mp hEnded x hx)

theorem step (h : Over c) (event : Event) : Over (c.step event) := by
  have hChanges := c.changes_step event
  constructor
  case orderly => exact h.orderly.step event
  case sound =>
    obtain ⟨begun, hSound⟩ := h.sound
    obtain ⟨moves, hFleet, -⟩ := hChanges.leads
    rw [hFleet]
    exact ⟨_, hSound.run moves⟩
  case ending => exact (Remains.of_changes hChanges).ending h.ending
  case connections =>
    apply hChanges.grown.forall_mem _ _ h.connections
    · intro id
      rw [h.ending]
      exact Connection.isOver_new id _
    · intro x event hx
      exact hx.step event

theorem run (h : Over c) (events : List Event) : Over (c.run events) := by
  induction events generalizing c with
  | nil => exact h
  | cons event events ih => exact ih (h.step event)

theorem active (h : Over c) : c.active = false := h.orderly.inactive h.ending

theorem activeConnections_eq (h : Over c) : c.activeConnections = 0 := by
  rw [activeConnections, List.length_eq_zero_iff, List.filter_eq_nil_iff]
  intro x hx hActive
  obtain ⟨hInactive, -⟩ := h.connections x hx
  cases hInactive.symm.trans hActive

theorem isUsable_eq (h : Over c) (i : Nat) : c.isUsable i = false := by
  rw [isUsable, Bool.eq_false_iff]
  intro hUsable
  obtain ⟨x, hx, hActive⟩ := (Option.any_eq_true _ _).mp hUsable
  obtain ⟨hInactive, -⟩ := h.connections x (List.mem_of_getElem? hx)
  cases hInactive.symm.trans hActive

/-! Timers. They end, and do nothing before they do. -/

theorem timers_step (h : Over c) (event : Event) :
    (c.step event).scheduler.timers.Sublist c.scheduler.timers := by
  obtain ⟨moves, hFleet, hFits⟩ := (c.changes_step event).leads
  rw [hFleet]
  rw [h.ending] at hFits
  exact Fleet.timers_run_sublist (fun x hx => (h.connections x hx).1) hFits

theorem timers_run (h : Over c) (events : List Event) :
    (c.run events).scheduler.timers.Sublist c.scheduler.timers := by
  induction events generalizing c with
  | nil => exact .refl _
  | cons event events ih => exact (ih (h.step event)).trans (h.timers_step event)

theorem toFleet_lapses (c : PooledClient γ) (keys : List (Nat × Nat)) :
    (c.run (keys.map .lapse)).toFleet = c.toFleet.run (keys.map .lapse) := by
  induction keys generalizing c with
  | nil => rfl
  | cons key keys ih => exact ih (c.step (.lapse key))

theorem isCompleted_of_timed (h : Over c) {key : Nat × Nat} (hTimed : key ∈ c.timed) :
    c.isCompleted key = true := by
  obtain ⟨begun, hSound⟩ := h.sound
  obtain ⟨m, hMessage⟩ := hSound.tracks.message (hSound.needed key hTimed).1
  obtain ⟨x, hx, hMessage'⟩ := Fleet.message?_eq_some.mp hMessage
  have hTold := (h.connections x (List.mem_of_getElem? hx)).2 key.2 m hMessage'
  refine Bool.of_not_eq_false fun hWaits => hTold ?_
  exact (Fleet.isCompleted_eq_false hMessage).mp hWaits

theorem connections_fire (h : Over c) (key : Nat × Nat) :
    (c.step (.fire key)).connections = c.connections := by
  obtain ⟨metrics, hFire⟩ := c.fire_eq key
  change (c.fire key).connections = _
  rw [hFire]
  change (c.toFleet.step (.fire key)).connections = _
  cases hMay : c.mayFire key with
  | true =>
    exact Fleet.connections_fire_of_completed (h.isCompleted_of_timed (Fleet.mem_timed_of_mayFire hMay))
  | false => simp [Fleet.step, hMay]

/-- A message on a connection that is over keeps the outcome it has. -/
theorem outcome?_run (h : Over c) {i k : Nat} {x : Connection γ} {m : Message}
    (hx : c.connections[i]? = some x) (hMessage : x.messages[k]? = some m) (events : List Event) :
    ∃ outcome, c.outcome? (.pending i k) = some outcome ∧
      (c.run events).outcome? (.pending i k) = some outcome := by
  have hTold := (h.connections x (List.mem_of_getElem? hx)).2 k m hMessage
  obtain ⟨outcome, hOutcome⟩ := Option.ne_none_iff_exists'.mp hTold
  obtain ⟨moves, hx'⟩ := c.connection_run hx events
  have hMessage' := Connection.getElem?_run_of_completed c.codec hMessage hTold moves
  refine ⟨outcome, ?_, ?_⟩
  · rw [outcome?, hx, Option.bind_some, hMessage, Option.bind_some, hOutcome]
  · rw [outcome?, hx', Option.bind_some, hMessage', Option.bind_some, hOutcome]

/-! Sends. -/

theorem step_send (h : Over c) (m : Message) :
    c.step (.send m) = { c with sends := c.sends ++ [.ended (some (.failed c.inactive))] } := by
  simp [PooledClient.step, beginSend, enter, h.active]

/-- A connection that is over takes no message, so a send without one stays without. -/
theorem message?_proceed (h : Over c) {stage : Stage} (hNone : stage.message? = none) :
    (c.proceed stage).1.message? = none := by
  cases stage with
  | seeking m =>
    have hFinds := c.finds_seek m
    change (c.seek m).1.message? = none
    generalize c.seek m = next at hFinds
    cases hFinds <;> rfl
  | holding i m =>
    change (c.queueOn i m).1.message? = none
    rcases c.queueOn_cases i m with ⟨x, k, sent, hx, hSend, -⟩ | ⟨cause, hQueue⟩
    · obtain ⟨hOpen, hActive, -⟩ := Connection.send_eq_ok hSend
      have hOver := h.connections x (List.mem_of_getElem? hx)
      exact absurd ⟨hOpen, hActive⟩ (Connection.not_open_of_inactive hOver.1)
    · rw [hQueue]
      rfl
  | entering m | trying i m | opened i m =>
    simp only [proceed]
    split <;> rfl
  | dropping i next => exact hNone
  | leaving i next => cases next <;> exact hNone
  | connecting | ended => exact hNone
  | queued | returning | putting => cases hNone

theorem message?_step (h : Over c) {send : Nat} {stage : Stage} (hStage : c.sends[send]? = some stage)
    (hNone : stage.message? = none) (event : Event) :
    ∃ stage', (c.step event).sends[send]? = some stage' ∧ stage'.message? = none := by
  have hReach (other : Nat) (next : Stage × PooledClient γ)
      (hNext : other = send → next.1.message? = none) :
      ∃ stage', (c.reach other next).sends[send]? = some stage' ∧ stage'.message? = none := by
    change ∃ stage', (c.sends.set other next.1)[send]? = some stage' ∧ _
    by_cases hAt : other = send
    · subst hAt
      exact ⟨next.1, List.getElem?_set_self (List.getElem?_eq_some_iff.mp hStage).1, hNext rfl⟩
    · exact ⟨stage, (List.getElem?_set_ne hAt).trans hStage, hNone⟩
  have hActs := c.acts_step event
  generalize c.step event = c' at hActs
  cases hActs with
  | begun m =>
    refine ⟨stage, ?_, hNone⟩
    exact (List.getElem?_append_left (List.getElem?_eq_some_iff.mp hStage).1).trans hStage
  | @proceeded other stage' hOther =>
    refine hReach other _ fun hAt => h.message?_proceed ?_
    obtain rfl := Option.some.inj ((hAt ▸ hOther).symm.trans hStage)
    exact hNone
  | @connected other _ _ result => exact hReach other _ fun _ => by cases result <;> rfl
  | @abandoned other => exact hReach other _ fun _ => rfl
  | swept | dismissed | drained => exact ⟨stage, hStage, hNone⟩
  | rests hRests => exact ⟨stage, hRests.sends_eq ▸ hStage, hNone⟩

theorem message?_run (h : Over c) {send : Nat} {stage : Stage} (hStage : c.sends[send]? = some stage)
    (hNone : stage.message? = none) (events : List Event) :
    ∃ stage', (c.run events).sends[send]? = some stage' ∧ stage'.message? = none := by
  induction events generalizing c stage with
  | nil => exact ⟨stage, hStage, hNone⟩
  | cons event events ih =>
    obtain ⟨stage', hStage', hNone'⟩ := h.message?_step hStage hNone event
    exact ih (h.step event) hStage' hNone'

theorem finish_entering (hClosed : c.pool.closed = true) {send : Nat} {m : Message}
    (hStage : c.sends[send]? = some (.entering m)) :
    (c.finish send).sends[send]? = some (.ended (some (.failed (.pool .closed)))) := by
  have hStep : (c.step (.proceed send)).sends[send]? =
      some (.ended (some (.failed (.pool .closed)))) := by
    rw [step_proceed hStage, getElem?_reach hStage, proceed, if_pos hClosed]
  rw [← finish_step_proceed, finish_of_isSettled hStep rfl]
  exact hStep

/-- A connection that comes too late does not pass, and is closed again. -/
theorem finish_opened (h : Over c) (hTest : c.policy.testOnCreate = true) {send i : Nat} {m : Message}
    (hStage : c.sends[send]? = some (.opened i m)) :
    (c.finish send).sends[send]? = some (.ended (some (.failed (.pool .invalidOnCreate)))) := by
  have hFails : ¬c.passes c.policy.testOnCreate i = true := by
    simp [passes, Pool.passes, hTest, h.isUsable_eq i]
  obtain ⟨dropping, hDropping⟩ : ∃ c', c' = c.step (.proceed send) := ⟨_, rfl⟩
  have hFirst : dropping.sends[send]? =
      some (.dropping i (.done (.failed (.pool .invalidOnCreate)))) := by
    rw [hDropping, step_proceed hStage, getElem?_reach hStage, proceed, if_neg hFails]
  obtain ⟨leaving, hLeaving⟩ : ∃ c', c' = dropping.step (.proceed send) := ⟨_, rfl⟩
  have hSecond : leaving.sends[send]? =
      some (.leaving i (.done (.failed (.pool .invalidOnCreate)))) := by
    rw [hLeaving, step_proceed hFirst, getElem?_reach hFirst]
    rfl
  have hLast : (leaving.step (.proceed send)).sends[send]? =
      some (.ended (some (.failed (.pool .invalidOnCreate)))) := by
    rw [step_proceed hSecond, getElem?_reach hSecond]
    rfl
  rw [← finish_step_proceed, ← hDropping, ← finish_step_proceed, ← hLeaving, ← finish_step_proceed,
    finish_of_isSettled hLast rfl]
  exact hLast

theorem finish_connected (h : Over c) (hTest : c.policy.testOnCreate = true) {send : Nat} {m : Message}
    (hStage : c.sends[send]? = some (.connecting m)) (result : Except ConnectError Unit) :
    ((c.step (.connected send result)).finish send).sends[send]? =
      some (.ended (some (.failed (.pool (late result))))) := by
  have hStep : c.step (.connected send result) = c.reach send (c.connected m result) := by
    change c.connectSend send result = _
    rw [connectSend, hStage]
  have hNext := getElem?_reach hStage (c.connected m result)
  rw [← hStep] at hNext
  cases result with
  | error cause =>
    rw [finish_of_isSettled hNext rfl]
    exact hNext
  | ok opened =>
    refine (h.step _).finish_opened ?_ hNext
    rw [hStep]
    exact hTest

end Over

/-! A pool that has been closed fills no more, except by those who had looked at it before. -/

theorem length_idle_proceed (hClosed : c.pool.closed = true) (stage : Stage) :
    (c.proceed stage).2.pool.idle.length + (c.proceed stage).1.isReturning.toNat ≤
      c.pool.idle.length + stage.isReturning.toNat := by
  cases stage with
  | seeking m =>
    have hFinds := c.finds_seek m
    change (c.seek m).2.pool.idle.length + (c.seek m).1.isReturning.toNat ≤ _
    generalize c.seek m = next at hFinds
    cases hFinds with
    | taken hIdle => simp [hIdle, Stage.isReturning]
    | reserved hIdle | exhausted hIdle => exact Nat.le_refl _
  | holding i m =>
    change (c.queueOn i m).2.pool.idle.length + (c.queueOn i m).1.isReturning.toNat ≤ _
    rcases c.queueOn_cases i m with ⟨x, k, sent, -, -, hQueue⟩ | ⟨cause, hQueue⟩ <;> rw [hQueue] <;>
      exact Nat.le_refl _
  | entering m | queued i k =>
    simp only [proceed, if_pos hClosed]
    exact Nat.le_refl _
  | trying i m | opened i m =>
    simp only [proceed]
    split <;> exact Nat.le_refl _
  | returning i k =>
    simp only [proceed]
    split
    · exact Nat.le_refl _
    · exact Nat.le_succ _
  | leaving i next => cases next <;> exact Nat.le_refl _
  | putting | dropping | connecting | ended => exact Nat.le_refl _

theorem length_idle_step (hClosed : c.pool.closed = true) (event : Event) :
    (c.step event).pool.idle.length + (c.step event).sends.countP Stage.isReturning ≤
      c.pool.idle.length + c.sends.countP Stage.isReturning := by
  have hReach {send : Nat} {stage : Stage} (hStage : c.sends[send]? = some stage)
      (next : Stage × PooledClient γ)
      (hNext : next.2.pool.idle.length + next.1.isReturning.toNat ≤
        c.pool.idle.length + stage.isReturning.toNat) :
      (c.reach send next).pool.idle.length + (c.reach send next).sends.countP Stage.isReturning ≤
        c.pool.idle.length + c.sends.countP Stage.isReturning := by
    have hCount := countP_reach Stage.isReturning next.1 hStage
    change next.2.pool.idle.length + (c.sends.set send next.1).countP Stage.isReturning ≤ _
    omega
  have hActs := c.acts_step event
  generalize c.step event = c' at hActs
  cases hActs with
  | begun m =>
    have hEnter : (c.enter m).isReturning = false := by
      unfold enter
      split <;> rfl
    simp [beginSend, List.countP_append, hEnter]
  | proceeded hStage => exact hReach hStage _ (length_idle_proceed hClosed _)
  | connected hStage result => exact hReach hStage _ (by cases result <;> exact Nat.le_refl _)
  | abandoned hStage => exact hReach hStage _ (Nat.le_refl _)
  | swept late =>
    have hPerm := Pool.takeDoomed_perm c.policy (fun i => c.isUsable i && !late.contains i)
      c.scheduler.now c.pool
    have hLength := hPerm.length_eq
    simp only [Pool.objects, List.length_append, List.length_map] at hLength
    exact Nat.add_le_add_right (Nat.le_of_add_right_le (Nat.le_of_eq hLength)) _
  | dismissed => exact Nat.le_refl _
  | drained => exact Nat.add_le_add_right (Nat.zero_le _) _
  | rests hRests => exact Nat.le_of_eq (by rw [hRests.idle_eq, hRests.sends_eq])

theorem length_idle_run (hClosed : c.pool.closed = true) (events : List Event) :
    (c.run events).pool.idle.length + (c.run events).sends.countP Stage.isReturning ≤
      c.pool.idle.length + c.sends.countP Stage.isReturning := by
  induction events generalizing c with
  | nil => exact Nat.le_refl _
  | cons event events ih =>
    have hStill := (Remains.of_changes (c.changes_step event)).closed hClosed
    exact Nat.le_trans (ih hStill) (length_idle_step hClosed event)

theorem countP_isReturning_of_isSettled (hSettled : c.isSettled = true) :
    c.sends.countP Stage.isReturning = 0 := by
  rw [List.countP_eq_zero]
  intro stage hStage hReturns
  have hStill := (isSettled_iff.mp hSettled).1 stage hStage
  cases stage <;> simp_all [Stage.isSettled, Stage.isReturning]

theorem resume_of_closed (hClosed : c.pool.closed = true) (hFull : c.drained = false) :
    c.resume.pool.idle = [] ∧ c.resume.pool.closed = true ∧ c.resume.sends = c.sends := by
  have hCancel : c.cancel.pool = c.pool ∧ c.cancel.drained = c.drained ∧ c.cancel.sends = c.sends := by
    unfold cancel
    split <;> exact ⟨rfl, rfl, rfl⟩
  obtain ⟨hPool, hDrained, hSends⟩ := hCancel
  change c.cancel.drainPool.pool.idle = [] ∧ c.cancel.drainPool.pool.closed = true ∧
    c.cancel.drainPool.sends = c.sends
  have hTest : (c.cancel.pool.closed && !c.cancel.drained) = true := by
    rw [hPool, hClosed, hDrained, hFull]
    rfl
  rw [drainPool, if_pos hTest]
  exact ⟨rfl, hPool ▸ hClosed, hSends⟩

/-- In turns nobody is putting a connection back while a pool is closed. -/
theorem idle_turn (hOrderly : c.Orderly) (hSettled : c.isSettled = true)
    (hEmpty : c.pool.closed = true → c.pool.idle = []) (event : Event)
    (hClosed : (c.turn event).pool.closed = true) : (c.turn event).pool.idle = [] := by
  have hNobody := countP_isReturning_of_isSettled hSettled
  rw [← List.length_eq_zero_iff]
  cases hBefore : c.pool.closed with
  | true =>
    obtain ⟨events, hTurn⟩ := c.exists_turn_eq_run event
    have hLength : (c.turn event).pool.idle.length + _ ≤ _ := hTurn ▸ length_idle_run hBefore (event :: events)
    rw [hNobody, hEmpty hBefore, List.length_nil] at hLength
    omega
  | false =>
    -- the turn is that of the shutdown, which goes on to empty the pool
    have hStep : c.step event = { c with pool.closed := true } := by
      have hChanges := c.changes_step event
      rw [turn, closed_settle] at hClosed
      generalize c.step event = c' at hChanges hClosed
      cases hChanges with
      | closed => rfl
      | serves hServes =>
        obtain ⟨-, -, -, hSame, -⟩ := by
          simpa only [phase, Prod.mk.injEq] using hServes.phase_eq
        cases (hSame.symm.trans hClosed).symm.trans hBefore
      | drained hNow => cases hNow.symm.trans hBefore
      | begun | cancelled | stopped => cases hClosed.symm.trans hBefore
    have hFull : c.drained = false := by
      refine Bool.of_not_eq_true fun hDrained => ?_
      cases (hOrderly.drained hDrained).symm.trans hBefore
    obtain ⟨hNone, hShut, hSends⟩ := resume_of_closed (c := { c with pool.closed := true }) rfl hFull
    rw [← hStep] at hNone hShut hSends
    obtain ⟨events, hSettle⟩ := (c.step event).exists_settle_eq_run
    have hLength : (c.turn event).pool.idle.length + _ ≤ _ := hSettle ▸ length_idle_run hShut events
    have hSame : (c.step event).sends = c.sends := by rw [hStep]
    rw [hSends, hSame, hNobody, hNone, List.length_nil] at hLength
    omega

theorem idle_inTurns (hOrderly : c.Orderly) (hSettled : c.isSettled = true)
    (hEmpty : c.pool.closed = true → c.pool.idle = []) (turns : List Event) :
    (c.inTurns turns).pool.closed = true → (c.inTurns turns).pool.idle = [] := by
  induction turns generalizing c with
  | nil => exact hEmpty
  | cons event turns ih =>
    obtain ⟨events, hTurn⟩ := c.exists_turn_eq_run event
    have hOrderly' : (c.turn event).Orderly := hTurn ▸ hOrderly.run (event :: events)
    exact ih hOrderly' (c.step event).isSettled_settle (idle_turn hOrderly hSettled hEmpty event)

/-- What is so for good once the first shutdown has returned with all connections ended, and what every
later state has of it. -/
structure Final (returned c : PooledClient γ) : Prop where
  /-- Every message that a connection has taken has its outcome, and keeps it. -/
  outcomes : ∀ (i k : Nat) (x : Connection γ) (m : Message), returned.connections[i]? = some x →
    x.messages[k]? = some m → ∃ outcome, returned.outcome? (.pending i k) = some outcome ∧
      c.outcome? (.pending i k) = some outcome
  closed : c.pool.closed = true
  inactive : c.activeConnections = 0
  /-- The shutdown has waited for the timers. -/
  no_timer : returned.hasShutDown = true → c.scheduler.timers = []
  /-- If its wait was cut short, those that were left then end when it is their turn and do nothing before,
  and no other starts. -/
  timers : c.scheduler.timers.Sublist returned.scheduler.timers
  lapsed : (c.run (c.timed.map .lapse)).scheduler.timers = []
  silent : ∀ key, (c.step (.fire key)).connections = c.connections
  /-- A later send does not come to the pool. -/
  refused : ∀ m,
    c.step (.send m) = { c with sends := c.sends ++ [.ended (some (.failed c.inactive))] }
  /-- A send that has been let in before finds the pool closed. -/
  entering : ∀ (send : Nat) (m : Message), c.sends[send]? = some (.entering m) →
    (c.finish send).sends[send]? = some (.ended (some (.failed (.pool .closed))))
  /-- A connect that ends now fails its send. -/
  connecting : ∀ (send : Nat) (m : Message), c.sends[send]? = some (.connecting m) → ∀ result,
    ((c.step (.connected send result)).finish send).sends[send]? =
      some (.ended (some (.failed (.pool (late result)))))
  /-- A send that has not queued its message by now never will, whoever comes between its stages. -/
  unqueued : ∀ (send : Nat) (stage : Stage), c.sends[send]? = some stage → stage.message? = none →
    ∀ later, ∃ stage', (c.run later).sends[send]? = some stage' ∧ stage'.message? = none
  /-- Another shutdown changes nothing. -/
  again : c.shutdown = c ∧ ∀ stage ∈ shutdownStages, c.step stage = c

theorem Over.step_shutdownStages (h : Over c) (hDrained : c.drained = true) :
    ∀ stage ∈ shutdownStages, c.step stage = c := by
  have hClosed := h.orderly.drained hDrained
  have hStopped := h.orderly.closed hClosed
  have hActive := h.active
  intro stage hStage
  simp only [shutdownStages, List.mem_cons, List.not_mem_nil, or_false] at hStage
  rcases hStage with rfl | rfl | rfl | rfl | rfl
  · change { c with active := false } = c
    rw [← hActive]
  · change c.cancel = c
    simp [cancel, h.ending]
  · change c.stopTimers = c
    rw [stopTimers, if_pos h.ending]
    have hStop : c.toFleet.step .stop = c.toFleet := by
      simp only [Fleet.step, ← hStopped]
    rw [happens, hStop]
  · change c.closePool = c
    rw [closePool, if_pos hStopped]
    simp only [← hClosed]
  · change c.drainPool = c
    simp [drainPool, hDrained]

theorem Over.final {returned : PooledClient γ} (hReturned : Over returned)
    (hDrained : returned.drained = true) (hTest : returned.policy.testOnCreate = true)
    (events : List Event) : Final returned (returned.run events) := by
  have h := hReturned.run events
  have hTest' : (returned.run events).policy.testOnCreate = true :=
    (congrArg (·.2.2.1.testOnCreate) (setup_run returned events)).trans hTest
  have hDrained' := (Remains.run returned events).drained hDrained
  have hClosed := h.orderly.drained hDrained'
  constructor
  case outcomes =>
    intro i k x m hx hMessage
    exact hReturned.outcome?_run hx hMessage events
  case closed => exact hClosed
  case inactive => exact h.activeConnections_eq
  case no_timer =>
    intro hOver
    rw [Fleet.hasShutDown, Bool.and_eq_true, List.isEmpty_iff] at hOver
    exact List.sublist_nil.mp (hOver.2 ▸ hReturned.timers_run events)
  case timers => exact hReturned.timers_run events
  case lapsed =>
    have hLapsed := (toFleet_lapses (returned.run events) (returned.run events).timed).trans
      (Fleet.run_lapse_all (h.orderly.closed hClosed))
    rw [hLapsed, Scheduler.stop]
  case silent => exact h.connections_fire
  case refused => exact h.step_send
  case entering =>
    intro send m hStage
    exact finish_entering hClosed hStage
  case connecting =>
    intro send m hStage
    exact h.finish_connected hTest' hStage
  case unqueued =>
    intro send stage hStage hNone
    exact h.message?_run hStage hNone
  case again => exact ⟨by simp [shutdown, h.active], h.step_shutdownStages hDrained'⟩

/-- Two sends in turns, one of which still waits for its connect when the client has been shut down. -/
def connectingLate : List Event :=
  [.send (.new [97] ⟨1000⟩), .send (.new [98] ⟨1000⟩), .connected 0 (.ok ()), .beginShutdown,
    .on 0 .turn, .stopTimers, .closePool]

/-- A send is about to put its connection back, and the client is shut down without waiting for it. -/
def puttingLate : List Event :=
  [.send (.new [97] ⟨1000⟩), .proceed 0, .proceed 0, .connected 0 (.ok ()), .proceed 0, .proceed 0,
    .proceed 0, .proceed 0, .beginShutdown, .cancel, .stopTimers, .closePool]

/-- The bound is met. -/
example :
    let closing := (ofSettings { workers := 2 } .lines ()).run puttingLate
    let c := closing.run [.drainPool, .on 0 .turn, .proceed 0]
    closing.sends.countP Stage.isReturning = 1 ∧ c.pool.closed = true ∧ c.pool.idle.length = 1 := by
  decide +kernel

end PooledClient
end Switchyard.Client
