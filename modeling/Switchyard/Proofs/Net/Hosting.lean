import Switchyard.Net.Server

/-! # The life of a server

What starts, stops and shutdowns make of a server between them, in any order. One start at most succeeds,
and none that begins after a stop. The hook runs once, behind the accept loop, and then nothing more is
accepted.
-/
namespace Switchyard.Net
set_option autoImplicit false

namespace Teardown

/-- How many parts of a shutdown are over. -/
def stage : Teardown → Nat
  | none => 0
  | requested => 1
  | awaitingAccept => 2
  | draining => 3
  | done => 4

/-- Behind `awaitingAccept` the shutdown has replaced the state, behind `draining` it has waited for the accept
loop. -/
instance : LE Teardown := ⟨fun earlier later => earlier.stage ≤ later.stage⟩

variable {earlier later : Teardown}

theorem le_def : earlier ≤ later ↔ earlier.stage ≤ later.stage := Iff.rfl

instance : Decidable (earlier ≤ later) := decidable_of_iff _ le_def.symm

theorem le_trans {last : Teardown} (h : earlier ≤ later) (hLast : later ≤ last) : earlier ≤ last :=
  Nat.le_trans h hLast

theorem requested_le_iff : requested ≤ later ↔ later ≠ none := by cases later <;> simp [le_def, stage]

theorem done_le_iff : done ≤ later ↔ later = done := by cases later <;> simp [le_def, stage]

end Teardown

/-- What a start returns. -/
abbrev StartResult := Except ServerError SocketAddress

/-- The addresses with which starts have succeeded. -/
def successes (results : List StartResult) : List SocketAddress := results.filterMap Except.toOption

section successes
variable {results : List StartResult} {address : SocketAddress}

@[simp] theorem successes_append_error (cause : ServerError) :
    successes (results ++ [.error cause]) = successes results := by
  simp [successes, Except.toOption]

@[simp] theorem successes_append_ok : successes (results ++ [.ok address]) = successes results ++ [address] := by
  simp [successes, Except.toOption]

theorem mem_successes : address ∈ successes results ↔ .ok address ∈ results := by
  unfold successes
  rw [List.mem_filterMap]
  constructor
  · rintro ⟨result, hMem, hAddress⟩
    cases result with
    | error => cases hAddress
    | ok => cases hAddress; exact hMem
  · exact fun hMem => ⟨_, hMem, rfl⟩

end successes

namespace Server
variable {s t : Server} {event : Event}

/-- What the start that has the state returns at an event, if it returns. A start that finds the state held
by another one waits for it. -/
def result? (s : Server) : Event → Option StartResult
  | .beginStart =>
    if s.starting then none
    else
      match s.beginStart with
      | .ok _ => none
      | .error cause => some (.error cause)
  | .finishStart bound => if s.starting then some (s.finishStart bound).1 else none
  | _ => none

/-- What all the starts of a run return, in the order in which they do. -/
def results (s : Server) : List Event → List StartResult
  | [] => []
  | event :: events => (s.result? event).toList ++ (s.step event).results events

theorem run_append (s : Server) (before after : List Event) :
    s.run (before ++ after) = (s.run before).run after := List.foldl_append

/-- All that an event can do to a server, and what a start returns by it. -/
inductive Move (s : Server) : Event → Option StartResult → Server → Prop
  /-- At most the connections and their slots change. -/
  | still {event : Event} (slotHeld : Bool) (freeSlots : Nat) (connections : Tracker)
      (hStop : event ≠ .stop) (hShut : event = .beginShutdown → s.teardown ≠ .none)
      (hTaken : s.accepting = false → connections.nextId = s.connections.nextId) :
      Move s event none { s with slotHeld, freeSlots, connections }
  | refuse {cause : ServerError} (hFree : s.starting = false) (hCause : s.beginStart = .error cause) :
      Move s .beginStart (some (.error cause)) s
  | start (hFree : s.starting = false) (hIdle : s.state = .idle) (hOpen : s.stopRequested = false) :
      Move s .beginStart none { s with starting := true }
  | fail (cause : ServerError) (hStarting : s.starting = true) :
      Move s (.finishStart (.error cause)) (some (.error cause)) { s with starting := false }
  | succeed (address : SocketAddress) (hStarting : s.starting = true) :
      Move s (.finishStart (.ok address)) (some (.ok address))
        { s with starting := false, state := .running address, accepting := true }
  | stop : Move s .stop none { s with stopRequested := true }
  | endAccepting (slotHeld : Bool) (freeSlots : Nat) (hStop : s.stopRequested = true) :
      Move s .endAccepting none { s with slotHeld, freeSlots, accepting := false }
  | beginShutdown (hActive : s.teardown = .none) :
      Move s .beginShutdown none { s with stopRequested := true, teardown := .requested }
  | takeState (patient : Bool) (hRequested : s.teardown = .requested) (hFree : s.starting = false) :
      Move s (.continueShutdown patient) none { s with state := .stopped, teardown := .awaitingAccept }
  | awaitAccept (patient : Bool) (hAwaiting : s.teardown = .awaitingAccept)
      (hEnded : s.accepting = false) : Move s (.continueShutdown patient) none { s with teardown := .draining }
  | drain (patient : Bool) (hDraining : s.teardown = .draining) :
      Move s (.continueShutdown patient) none { s with teardown := .done, hookRuns := s.hookRuns + 1 }

theorem beginStart_eq_ok_iff : s.beginStart = .ok t ↔
    s.state = .idle ∧ s.stopRequested = false ∧ t = { s with starting := true } := by
  unfold beginStart
  cases s.state with
  | idle => cases s.stopRequested <;> simp [eq_comm]
  | running address | stopped => simp

theorem step_beginStart (hFree : s.starting = false) (hIdle : s.state = .idle)
    (hOpen : s.stopRequested = false) : s.step .beginStart = { s with starting := true } := by
  have hBegins : s.beginStart = .ok { s with starting := true } := beginStart_eq_ok_iff.mpr ⟨hIdle, hOpen, rfl⟩
  simp [Server.step, hFree, hBegins, Except.toOption]

theorem move_step (s : Server) (event : Event) : s.Move event (s.result? event) (s.step event) := by
  have hStill (event : Event) (hStop : event ≠ .stop) (hShut : event ≠ .beginShutdown) :
      s.Move event none s := .still s.slotHeld s.freeSlots s.connections hStop (absurd · hShut) fun _ => rfl
  cases event with
  | beginStart =>
    unfold result? step
    by_cases hStarting : s.starting = true
    · simpa [hStarting] using hStill .beginStart nofun nofun
    · have hFree : s.starting = false := Bool.eq_false_iff.mpr hStarting
      cases hBegun : s.beginStart with
      | error cause => simpa [hFree, hBegun, Except.toOption] using Move.refuse hFree hBegun
      | ok t =>
        obtain ⟨hIdle, hOpen, rfl⟩ := beginStart_eq_ok_iff.mp hBegun
        simpa [hFree, hBegun, Except.toOption] using Move.start hFree hIdle hOpen
  | finishStart bound =>
    unfold result? step
    by_cases hStarting : s.starting = true
    · cases bound with
      | error cause => simpa [hStarting, finishStart] using Move.fail cause hStarting
      | ok address => simpa [hStarting, finishStart] using Move.succeed address hStarting
    · simpa [hStarting] using hStill (.finishStart bound) nofun nofun
  | stop => exact .stop
  | takeSlot =>
    change s.Move .takeSlot none s.takeSlot
    unfold takeSlot
    split
    · exact .still _ _ _ nofun nofun fun _ => rfl
    · exact hStill _ nofun nofun
  | accepted =>
    change s.Move .accepted none s.accepted
    unfold accepted
    split
    case isTrue hTakes =>
      have hAccepting : s.accepting = true := (Bool.and_eq_true_iff.mp hTakes).1
      exact .still _ _ _ nofun nofun fun hEnded => by simp [hEnded] at hAccepting
    case isFalse => exact hStill _ nofun nofun
  | acceptFailed =>
    change s.Move .acceptFailed none s.acceptFailed
    unfold acceptFailed releaseSlot
    split
    · split
      · exact .still _ _ _ nofun nofun fun _ => rfl
      · exact hStill _ nofun nofun
    · exact hStill _ nofun nofun
  | endAccepting =>
    change s.Move .endAccepting none s.endAccepting
    unfold endAccepting
    split
    case isTrue hEnds =>
      have hStop : s.stopRequested = true := (Bool.and_eq_true_iff.mp hEnds).2
      unfold releaseSlot
      split
      · exact .endAccepting _ _ hStop
      · exact .endAccepting s.slotHeld s.freeSlots hStop
    case isFalse => exact hStill _ nofun nofun
  | connectionEnded =>
    change s.Move .connectionEnded none s.connectionEnded
    unfold connectionEnded
    split
    · exact hStill _ nofun nofun
    · exact .still _ _ _ nofun nofun fun _ => rfl
  | beginShutdown =>
    change s.Move .beginShutdown none s.beginShutdown
    unfold beginShutdown isActive
    split
    case isTrue hActive => exact .beginShutdown (of_decide_eq_true hActive)
    case isFalse hOver =>
      refine .still s.slotHeld s.freeSlots s.connections nofun (fun _ hActive => ?_) fun _ => rfl
      exact hOver (decide_eq_true hActive)
  | continueShutdown patient =>
    change s.Move (.continueShutdown patient) none (s.continueShutdown patient)
    unfold continueShutdown
    split
    case h_1 hRequested =>
      split
      · exact hStill _ nofun nofun
      · exact .takeState patient hRequested (Bool.eq_false_iff.mpr ‹_›)
    case h_2 hAwaiting =>
      split
      · exact hStill _ nofun nofun
      · exact .awaitAccept patient hAwaiting (Bool.eq_false_iff.mpr ‹_›)
    case h_3 hDraining =>
      split
      · exact .drain patient hDraining
      · exact hStill _ nofun nofun
    case h_4 | h_5 => exact hStill _ nofun nofun

section Move
variable {result : Option StartResult} (hMove : s.Move event result t)
include hMove

theorem Move.name_eq : t.name = s.name := by cases hMove <;> rfl

theorem Move.stopRequested_iff (hAsked : s.teardown ≠ .none → s.stopRequested = true) :
    t.stopRequested = true ↔ s.stopRequested = true ∨ event = .stop ∨ event = .beginShutdown := by
  cases hMove with
  | still slotHeld freeSlots connections hStop hShut => grind
  | _ => simp

theorem Move.stopRequested (h : s.stopRequested = true) : t.stopRequested = true := by
  cases hMove with
  | stop | beginShutdown => rfl
  | _ => exact h

/-- The hook runs behind the wait for the accept loop. -/
theorem Move.draining_of_lt (h : s.hookRuns < t.hookRuns) : s.teardown = .draining := by
  cases hMove with
  | drain patient hDraining => exact hDraining
  | _ => exact absurd h (Nat.lt_irrefl _)

theorem Move.teardown_le : s.teardown ≤ t.teardown := by
  cases hMove with
  | beginShutdown h | takeState patient h | awaitAccept patient h | drain patient h =>
    rw [h]
    exact Nat.le_succ _
  | _ => exact Nat.le_refl _

theorem Move.begun_iff : t.teardown ≠ .none ↔ s.teardown ≠ .none ∨ event = .beginShutdown := by
  cases hMove with
  | still slotHeld freeSlots connections hStop hShut => grind
  | _ => simp [*]

end Move

/-- What is true of a server behind the events of a run, in which the starts have returned these results. -/
structure Reached (name : String) (s : Server) (past : List Event) (results : List StartResult) : Prop where
  name_eq : s.name = name
  stop_iff : s.stopRequested = true ↔ .stop ∈ past ∨ .beginShutdown ∈ past
  begun_iff : s.teardown ≠ .none ↔ .beginShutdown ∈ past
  stopped_iff : s.state = .stopped ↔ Teardown.awaitingAccept ≤ s.teardown
  starting : s.starting = true → s.state = .idle
  idle : s.state = .idle → successes results = []
  running : ∀ address, s.state = .running address → successes results = [address]
  once : (successes results).length ≤ 1
  awaited : Teardown.draining ≤ s.teardown → s.accepting = false
  hook : s.hookRuns = if s.teardown = .done then 1 else 0

namespace Reached
variable {name : String} {past : List Event} {results : List StartResult}

theorem start (name bindAddress : String) (maxConnections : Nat) :
    Reached name (.new name bindAddress maxConnections) [] [] where
  name_eq := rfl
  stop_iff := by simp [Server.new]
  begun_iff := by simp [Server.new]
  stopped_iff := by simp [Server.new, Teardown.le_def, Teardown.stage]
  starting := nofun
  idle _ := rfl
  running := nofun
  once := Nat.zero_le 1
  awaited := nofun
  hook := rfl

theorem stopRequested (h : Reached name s past results) (hBegun : s.teardown ≠ .none) :
    s.stopRequested = true :=
  h.stop_iff.mpr (.inr (h.begun_iff.mp hBegun))

theorem move (h : Reached name s past results) {result : Option StartResult}
    (hMove : s.Move event result t) : Reached name t (past ++ [event]) (results ++ result.toList) where
  name_eq := hMove.name_eq.trans h.name_eq
  stop_iff := by
    rw [hMove.stopRequested_iff h.stopRequested, h.stop_iff]
    grind
  begun_iff := by
    rw [hMove.begun_iff, h.begun_iff]
    grind
  stopped_iff := by
    have hStopped := h.stopped_iff
    cases hMove with
    | succeed address hStarting =>
      rw [h.starting hStarting] at hStopped
      simpa using hStopped
    | takeState => simp [Teardown.le_def, Teardown.stage]
    | beginShutdown hActive | awaitAccept patient hActive | drain patient hActive =>
      rw [hActive] at hStopped
      simpa [Teardown.le_def, Teardown.stage] using hStopped
    | _ => exact hStopped
  starting := by
    cases hMove with
    | start hFree hIdle => exact fun _ => hIdle
    | fail | succeed => nofun
    | takeState patient hRequested hFree => simp [hFree]
    | _ => exact h.starting
  idle := by
    cases hMove with
    | succeed | takeState => nofun
    | _ => simpa using h.idle
  running := by
    cases hMove with
    | succeed address hStarting =>
      rintro _ ⟨⟩
      simp [h.idle (h.starting hStarting)]
    | takeState => nofun
    | _ => simpa using h.running
  once := by
    cases hMove with
    | succeed address hStarting => simp [h.idle (h.starting hStarting)]
    | _ => simpa using h.once
  awaited := by
    cases hMove with
    | succeed address hStarting =>
      -- While a start is in its bind the state is idle, so no shutdown can have replaced it.
      intro hAwaited
      have hStopped : s.state = .stopped := h.stopped_iff.mpr (Teardown.le_trans (by decide) hAwaited)
      cases hStopped.symm.trans (h.starting hStarting)
    | endAccepting => exact fun _ => rfl
    | awaitAccept patient hAwaiting hEnded => exact fun _ => hEnded
    | drain patient hDraining => exact fun _ => h.awaited (by rw [hDraining]; decide)
    | beginShutdown | takeState => nofun
    | _ => exact h.awaited
  hook := by
    have hHook := h.hook
    cases hMove with
    | beginShutdown hActive | takeState patient hActive | awaitAccept patient hActive | drain patient hActive =>
      rw [hActive] at hHook
      simpa using hHook
    | _ => exact hHook

theorem run (h : Reached name s past results) (events : List Event) :
    Reached name (s.run events) (past ++ events) (results ++ s.results events) := by
  induction events generalizing s past results with
  | nil => simpa [Server.run, Server.results] using h
  | cons event events ih =>
    have hStep := ih (h.move (move_step s event))
    rwa [List.append_assoc, List.append_assoc] at hStep

/-- No start is in its bind behind the replacing of the state. -/
theorem free (h : Reached name s past results) (hReplaced : .awaitingAccept ≤ s.teardown) :
    s.starting = false := by
  refine Bool.eq_false_iff.mpr fun hStarting => ?_
  cases (h.stopped_iff.mpr hReplaced).symm.trans (h.starting hStarting)

end Reached

/-! What is true of a server from some event on. -/

/-- A start is not in its bind, and none will be. -/
structure Barred (s : Server) : Prop where
  stop : s.stopRequested = true
  free : s.starting = false

/-- The accept loop has ended, and none will run. -/
structure Quiet (s : Server) : Prop extends Barred s where
  ended : s.accepting = false

theorem Barred.move (h : s.Barred) {result : Option StartResult} (hMove : s.Move event result t) :
    t.Barred ∧ ∀ address, result ≠ some (.ok address) := by
  obtain ⟨hStop, hFree⟩ := h
  cases hMove with
  | start _ _ hOpen => simp [hStop] at hOpen
  | fail _ hStarting | succeed _ hStarting => simp [hFree] at hStarting
  | _ => exact ⟨⟨by simp [hStop], hFree⟩, nofun⟩

theorem Barred.step (h : s.Barred) (event : Event) : (s.step event).Barred :=
  (h.move (move_step s event)).1

theorem Barred.successes_results (h : s.Barred) (events : List Event) : successes (s.results events) = [] := by
  induction events generalizing s with
  | nil => rfl
  | cons event events ih =>
    have hNone := (h.move (move_step s event)).2
    rw [Server.results]
    cases hResult : s.result? event with
    | none => exact ih (h.step event)
    | some result =>
      cases result with
      | error cause => exact ih (h.step event)
      | ok address => exact absurd hResult (hNone address)

theorem Quiet.move (h : s.Quiet) {result : Option StartResult} (hMove : s.Move event result t) :
    t.Quiet ∧ t.connections.nextId = s.connections.nextId := by
  have hBarred := (h.toBarred.move hMove).1
  obtain ⟨⟨-, hFree⟩, hEnded⟩ := h
  cases hMove with
  | still _ _ _ _ _ hTaken => exact ⟨⟨hBarred, hEnded⟩, hTaken hEnded⟩
  | succeed _ hStarting => simp [hFree] at hStarting
  | endAccepting => exact ⟨⟨hBarred, rfl⟩, rfl⟩
  | _ => exact ⟨⟨hBarred, hEnded⟩, rfl⟩

theorem Quiet.step (h : s.Quiet) (event : Event) : (s.step event).Quiet := (h.move (move_step s event)).1

theorem Quiet.run (h : s.Quiet) (events : List Event) :
    (s.run events).Quiet ∧ (s.run events).connections.nextId = s.connections.nextId := by
  induction events generalizing s with
  | nil => exact ⟨h, rfl⟩
  | cons event events ih =>
    obtain ⟨hQuiet, hTaken⟩ := h.move (move_step s event)
    obtain ⟨hLast, hLater⟩ := ih hQuiet
    exact ⟨hLast, hLater.trans hTaken⟩

/-! A shutdown comes to its end as soon as each of its waits ends, whatever else happens between. -/

theorem run_preserves {P : Server → Prop} (hP : ∀ s event, P s → P (s.step event)) (h : P s)
    (events : List Event) : P (s.run events) := by
  induction events generalizing s with
  | nil => exact h
  | cons event events ih => exact ih (hP s event h)

/-- Of what stays true, an event of a run that makes more of it true makes that true behind the run. -/
theorem run_of_mem {P Q : Server → Prop} (hP : ∀ s event, P s → P (s.step event))
    (hQ : ∀ s event, Q s → Q (s.step event)) (hNext : ∀ s, P s → Q (s.step event)) {events : List Event}
    (hMem : event ∈ events) (h : P s) : Q (s.run events) := by
  obtain ⟨before, after, rfl⟩ := List.append_of_mem hMem
  rw [run_append]
  exact run_preserves hQ (hNext _ (run_preserves hP h before)) after

theorem teardown_ge_step {stage : Teardown} (event : Event) (h : stage ≤ s.teardown) :
    stage ≤ (s.step event).teardown :=
  Teardown.le_trans h (move_step s event).teardown_le

theorem stopRequested_step (event : Event) (h : s.stopRequested = true) :
    (s.step event).stopRequested = true :=
  (move_step s event).stopRequested h

theorem barred_finishStart (bound : StartResult) (hStop : s.stopRequested = true) :
    (s.step (.finishStart bound)).Barred := by
  refine ⟨stopRequested_step _ hStop, ?_⟩
  unfold Server.step
  cases hFree : s.starting with
  | false => simpa using hFree
  | true => cases bound <;> rfl

theorem Barred.replaces (h : s.Barred) (hBegun : .requested ≤ s.teardown) (patient : Bool) :
    .awaitingAccept ≤ (s.step (.continueShutdown patient)).teardown := by
  cases hStage : s.teardown with
  | none => simp [hStage, Teardown.le_def, Teardown.stage] at hBegun
  | requested => simp [Server.step, continueShutdown, hStage, h.free, Teardown.le_def]
  | awaitingAccept | draining | done =>
    refine teardown_ge_step _ ?_
    rw [hStage]
    decide

theorem Barred.quiet_endAccepting (h : s.Barred) : (s.step .endAccepting).Quiet := by
  refine ⟨h.step _, ?_⟩
  cases hEnded : s.accepting with
  | false => simp [Server.step, endAccepting, hEnded]
  | true => simp [Server.step, endAccepting, hEnded, h.stop]

theorem Quiet.awaits (h : s.Quiet) (hReplaced : .awaitingAccept ≤ s.teardown) (patient : Bool) :
    .draining ≤ (s.step (.continueShutdown patient)).teardown := by
  cases hStage : s.teardown with
  | none | requested => simp [hStage, Teardown.le_def, Teardown.stage] at hReplaced
  | awaitingAccept => simp [Server.step, continueShutdown, hStage, h.ended, Teardown.le_def]
  | draining | done =>
    refine teardown_ge_step _ ?_
    rw [hStage]
    decide

theorem ends_drain (hAwaited : .draining ≤ s.teardown) :
    .done ≤ (s.step (.continueShutdown false)).teardown := by
  cases hStage : s.teardown with
  | none | requested | awaitingAccept => simp [hStage, Teardown.le_def, Teardown.stage] at hAwaited
  | draining => simp [Server.step, continueShutdown, hStage, Teardown.le_def]
  | done =>
    refine teardown_ge_step _ ?_
    rw [hStage]
    decide

/-- The ends of all that a shutdown waits for, each followed by the part of it that goes on behind. -/
def ends (bound : StartResult) (patient patient' : Bool) : List Event :=
  [.finishStart bound, .continueShutdown patient, .endAccepting, .continueShutdown patient',
    .continueShutdown false]

theorem done_of_ends (hStop : s.stopRequested = true) (hBegun : .requested ≤ s.teardown) {bound : StartResult}
    {patient patient' : Bool} {events : List Event} (hEnds : (ends bound patient patient').Sublist events) :
    (s.run events).teardown = .done := by
  have hBarred (stage : Teardown) (s : Server) (event : Event) (h : s.Barred ∧ stage ≤ s.teardown) :
      (s.step event).Barred ∧ stage ≤ (s.step event).teardown := ⟨h.1.step event, teardown_ge_step event h.2⟩
  have hQuiet (stage : Teardown) (s : Server) (event : Event) (h : s.Quiet ∧ stage ≤ s.teardown) :
      (s.step event).Quiet ∧ stage ≤ (s.step event).teardown := ⟨h.1.step event, teardown_ge_step event h.2⟩
  -- Each part of the run holds one of the events, and what that brings about outlasts the rest.
  unfold ends at hEnds
  obtain ⟨first, _, rfl, hFirst, hEnds⟩ := List.cons_sublist_iff.mp hEnds
  obtain ⟨second, _, rfl, hSecond, hEnds⟩ := List.cons_sublist_iff.mp hEnds
  obtain ⟨third, _, rfl, hThird, hEnds⟩ := List.cons_sublist_iff.mp hEnds
  obtain ⟨fourth, fifth, rfl, hFourth, hEnds⟩ := List.cons_sublist_iff.mp hEnds
  have hFifth : .continueShutdown false ∈ fifth := List.singleton_sublist.mp hEnds
  simp only [run_append]
  have h₁ := run_of_mem (P := fun s => s.stopRequested = true ∧ .requested ≤ s.teardown)
    (fun s event h => ⟨stopRequested_step event h.1, teardown_ge_step event h.2⟩) (hBarred .requested)
    (fun s h => ⟨barred_finishStart bound h.1, teardown_ge_step _ h.2⟩) hFirst ⟨hStop, hBegun⟩
  have h₂ := run_of_mem (hBarred .requested) (hBarred .awaitingAccept)
    (fun s h => ⟨h.1.step _, h.1.replaces h.2 patient⟩) hSecond h₁
  have h₃ := run_of_mem (hBarred .awaitingAccept) (hQuiet .awaitingAccept)
    (fun s h => ⟨h.1.quiet_endAccepting, teardown_ge_step _ h.2⟩) hThird h₂
  have h₄ := run_of_mem (hQuiet .awaitingAccept) (hQuiet .draining)
    (fun s h => ⟨h.1.step _, h.1.awaits h.2 patient'⟩) hFourth h₃
  have h₅ := run_of_mem (Q := fun s => .done ≤ s.teardown) (hQuiet .draining)
    (fun s => teardown_ge_step) (fun s h => ends_drain h.2) hFifth h₄
  exact Teardown.done_le_iff.mp h₅

/-! What a run makes of its starts. -/

namespace Reached
variable {name : String} {past : List Event} {results : List StartResult}

theorem running_iff (h : Reached name s past results) {address : SocketAddress} :
    s.state = .running address ↔
      .ok address ∈ results ∧ ¬.awaitingAccept ≤ s.teardown := by
  rw [← mem_successes, ← h.stopped_iff]
  cases hState : s.state with
  | idle => simp [h.idle hState]
  | running bound => simp [h.running bound hState, eq_comm]
  | stopped => simp

theorem result?_beginStart (h : Reached name s past results) (hFree : s.starting = false)
    (hAsked : .stop ∈ past ∨ .beginShutdown ∈ past) :
    s.result? .beginStart = some (.error
      (if successes results ≠ [] ∧ ¬.awaitingAccept ≤ s.teardown then .alreadyStarted name else .stopped name)) := by
  have hStop : s.stopRequested = true := h.stop_iff.mpr hAsked
  simp only [← h.stopped_iff, ← h.name_eq]
  cases hState : s.state with
  | idle => simp [result?, beginStart, hFree, hState, hStop, h.idle hState]
  | running bound => simp [result?, beginStart, hFree, hState, h.running bound hState]
  | stopped => simp [result?, beginStart, hFree, hState]

theorem idle_of_unasked (h : Reached name s past results) (hAsked : ¬(.stop ∈ past ∨ .beginShutdown ∈ past))
    (hNone : successes results = []) : s.state = .idle := by
  cases hState : s.state with
  | idle => rfl
  | running bound => simp [h.running bound hState] at hNone
  | stopped =>
    have hBegun := Teardown.requested_le_iff.mp (Teardown.le_trans (by decide) (h.stopped_iff.mp hState))
    exact absurd (.inr (h.begun_iff.mp hBegun)) hAsked

theorem quiet (h : Reached name s past results) (hAwaited : .draining ≤ s.teardown) : s.Quiet where
  stop := h.stopRequested (Teardown.requested_le_iff.mp (Teardown.le_trans (by decide) hAwaited))
  free := h.free (Teardown.le_trans (by decide) hAwaited)
  ended := h.awaited hAwaited

end Reached

theorem result?_finishStart (hStarting : s.starting = true) (bound : StartResult) :
    s.result? (.finishStart bound) = some bound := by
  cases bound <;> simp [result?, finishStart, hStarting]

theorem step_finishStart_error (hStarting : s.starting = true) (cause : ServerError) :
    s.step (.finishStart (.error cause)) = { s with starting := false } := by
  simp [Server.step, finishStart, hStarting]

/-- Whether somebody has asked a server to end. -/
def IsAsked (events : List Event) : Prop := .stop ∈ events ∨ .beginShutdown ∈ events

/-- What the starts, stops and shutdowns so far have made of a server, and what they can still make of it.
`started` are the addresses with which starts have succeeded. -/
structure StartsAndEnds (name : String) (events : List Event) (started : List SocketAddress) (s : Server) :
    Prop where
  once : started.length ≤ 1
  localAddress : ∀ address, s.localAddress? = some address ↔ s.state = .running address
  running : ∀ address, s.state = .running address ↔ address ∈ started ∧ ¬.awaitingAccept ≤ s.teardown
  /-- A start that comes while another one is in its bind waits for it. -/
  waits : s.starting = true → s.result? .beginStart = none ∧ s.step .beginStart = s
  bound : s.starting = true → ∀ bound, s.result? (.finishStart bound) = some bound
  /-- A failed bind leaves the server as startable as it was. -/
  failed : s.starting = true → ∀ cause,
    s.step (.finishStart (.error cause)) = { s with starting := false } ∧
      (¬IsAsked events → (s.step (.finishStart (.error cause))).step .beginStart = s)
  begins : s.starting = false → ¬IsAsked events → started = [] →
    s.step .beginStart = { s with starting := true }
  refused : s.starting = false → IsAsked events → s.result? .beginStart = some (.error
    (if started ≠ [] ∧ ¬.awaitingAccept ≤ s.teardown then .alreadyStarted name else .stopped name))
  /-- No start succeeds that begins from then on. -/
  never : s.starting = false → IsAsked events → ∀ later, successes (s.results later) = []
  /-- Behind the wait for the accept loop nothing is taken any more. -/
  quiet : .draining ≤ s.teardown → ∀ later, (s.run later).accepting = false ∧
    (s.run later).connections.nextId = s.connections.nextId
  hook : s.hookRuns = if s.teardown = .done then 1 else 0
  hook_asked : s.hookRuns ≠ 0 → .beginShutdown ∈ events
  hook_last : ∀ event, s.hookRuns < (s.step event).hookRuns → .draining ≤ s.teardown ∧ s.accepting = false
  /-- A shutdown comes to its end as soon as all that it waits for has ended. -/
  ends : .beginShutdown ∈ events → ∀ bound patient patient' later,
    (ends bound patient patient').Sublist later →
      (s.run later).teardown = .done ∧ (s.run later).hookRuns = 1

namespace Reached
variable {name : String} {past : List Event} {results : List StartResult}

theorem startsAndEnds (h : Reached name s past results) :
    StartsAndEnds name past (successes results) s where
  once := h.once
  localAddress address := by
    unfold localAddress?
    cases s.state <;> simp
  running address := by rw [h.running_iff, mem_successes]
  waits hStarting := ⟨by simp [result?, hStarting], by simp [Server.step, hStarting]⟩
  bound := result?_finishStart
  failed hStarting cause := by
    have hFails := step_finishStart_error hStarting cause
    refine ⟨hFails, fun hOpen => ?_⟩
    have hAgain := step_beginStart (s := { s with starting := false }) rfl (h.starting hStarting)
      (Bool.eq_false_iff.mpr (hOpen ∘ h.stop_iff.mp))
    rw [hFails, hAgain, ← hStarting]
  begins hFree hOpen hNone :=
    step_beginStart hFree (h.idle_of_unasked hOpen hNone) (Bool.eq_false_iff.mpr (hOpen ∘ h.stop_iff.mp))
  refused := h.result?_beginStart
  never hFree hAsked := Barred.successes_results ⟨h.stop_iff.mpr hAsked, hFree⟩
  quiet hAwaited later := by
    obtain ⟨hQuiet, hTaken⟩ := (h.quiet hAwaited).run later
    exact ⟨hQuiet.ended, hTaken⟩
  hook := h.hook
  hook_asked hRuns := by
    refine h.begun_iff.mp fun hNone => hRuns ?_
    simp [h.hook, hNone]
  hook_last event hLt := by
    have hAwaited : .draining ≤ s.teardown := by
      rw [(move_step s event).draining_of_lt hLt]
      decide
    exact ⟨hAwaited, h.awaited hAwaited⟩
  ends hBegun bound patient patient' later hEnds := by
    have hActive : s.teardown ≠ .none := h.begun_iff.mpr hBegun
    have hDone := done_of_ends (h.stopRequested hActive) (Teardown.requested_le_iff.mpr hActive) hEnds
    refine ⟨hDone, ?_⟩
    rw [(h.run later).hook, if_pos hDone]

end Reached

/-- Of all the starts of a server one at most succeeds, in whatever order there are starts, stops and
shutdowns, and the server has its address from then until a shutdown replaces its state. A start that fails
leaves the server as it was, and one that begins behind a stop is refused like all that follow. Once a
shutdown has waited for the accept loop nothing is accepted any more. The hook runs once, at the end of the
shutdown, and to that it comes as soon as all that it waits for has ended. -/
theorem starts_and_ends_once (name bindAddress : String) (maxConnections : Nat) (events : List Event) :
    let first := Server.new name bindAddress maxConnections
    StartsAndEnds name events (successes (first.results events)) (first.run events) :=
  ((Reached.start name bindAddress maxConnections).run events).startsAndEnds

/-- One start has failed and the next is in its bind as a stop and a shutdown come. -/
def overlapping : List Event :=
  [.beginStart, .finishStart (.error .breakdown), .beginStart, .stop, .beginShutdown]

theorem starts_and_ends_once_overlapping :
    let first := Server.new "echo" "127.0.0.1:0" 2
    let bound : StartResult := .ok (.v4 [127, 0, 0, 1] 9100)
    let s := first.run overlapping
    let ended := first.run (overlapping ++ ends bound true true)
    s.result? (.finishStart bound) = some bound ∧ ended.hookRuns = 1 ∧
    ended.result? .beginStart = some (.error (.stopped "echo")) ∧
    ∀ later, successes (ended.results later) = [] ∧ (ended.run later).accepting = false := by
  intro first bound s ended
  have hBinding := starts_and_ends_once "echo" "127.0.0.1:0" 2 overlapping
  have hEnded := starts_and_ends_once "echo" "127.0.0.1:0" 2 (overlapping ++ ends bound true true)
  have hAsked : IsAsked (overlapping ++ ends bound true true) := .inl (by simp [overlapping])
  refine ⟨hBinding.bound rfl bound, ?_, hEnded.refused rfl hAsked, fun later => ⟨?_, ?_⟩⟩
  · have hRuns := (hBinding.ends (by simp [overlapping]) bound true true _ (List.Sublist.refl _)).2
    rwa [← run_append] at hRuns
  · exact hEnded.never rfl hAsked later
  · exact (hEnded.quiet (by decide) later).1

end Server
end Switchyard.Net
