import Mathlib.Data.List.Perm.Basic
import Switchyard.Net.Serving
import Switchyard.Proofs.Net.Hosting

/-! # Who has the slots of a server

A slot is free, or waits for a connection with the accept loop, or belongs to a connection whose handler has
not ended yet or has not given it back yet. A slot that was taken in vain is free again at once.
-/
namespace Switchyard.Net
set_option autoImplicit false

namespace Visit
variable {visit next : Visit} {part : Part}

theorem isOver_of_holdsSlot (h : visit.holdsSlot = false) : visit.isOver = true := by
  cases visit <;> first | rfl | cases h

theorem isOver_of_isTracked (h : visit.isTracked = false) : visit.isOver = true := by
  cases visit <;> first | rfl | cases h

def frees (part : Part) : Nat := if part = .freeSlot then 1 else 0

def leaves (part : Part) : Nat := if part = .leave then 1 else 0

/-- All that can become of a task. -/
inductive Turn : Visit → Part → Visit → Prop
  | call : Turn .waiting .call .handling
  | ended (crashed : Bool) : Turn .handling (.ended crashed) (.finished crashed true true)
  | freeSlot (crashed entry : Bool) :
    Turn (.finished crashed true entry) .freeSlot (.finished crashed false entry)
  | leave (crashed slot : Bool) (hOrder : crashed = true ∨ slot = false) :
    Turn (.finished crashed slot true) .leave (.finished crashed slot false)

theorem turn_of_next? (h : visit.next? part = some next) : visit.Turn part next := by
  unfold next? at h
  split at h
  case h_1 => cases h; exact .call
  case h_2 crashed => cases h; exact .ended crashed
  case h_3 crashed entry => cases h; exact .freeSlot crashed entry
  case h_4 crashed slot =>
    split at h
    case isTrue hOrder =>
      cases h
      exact .leave crashed slot (by simpa using hOrder)
    case isFalse => cases h
  case h_5 => cases h

theorem Turn.holdsSlot (h : visit.Turn part next) :
    next.holdsSlot.toNat + frees part = visit.holdsSlot.toNat := by
  cases h <;> rfl

theorem Turn.isTracked (h : visit.Turn part next) :
    next.isTracked.toNat + leaves part = visit.isTracked.toNat := by
  cases h <;> rfl

end Visit

theorem countP_set {α : Type} {l : List α} {i : Nat} {a b : α} (h : l[i]? = some a) (p : α → Bool) :
    (l.set i b).countP p + (p a).toNat = l.countP p + (p b).toNat := by
  obtain ⟨hLt, rfl⟩ := List.getElem?_eq_some_iff.mp h
  have hNew := (List.set_perm_cons_eraseIdx hLt b).countP_eq p
  have hOld := (List.getElem_cons_eraseIdx_perm hLt).countP_eq p
  rw [List.countP_cons] at hNew hOld
  cases hBefore : p l[i] <;> cases hAfter : p b <;>
    simp only [hBefore, hAfter, Bool.toNat_true, Bool.toNat_false, if_true, Bool.false_eq_true,
      if_false] at hNew hOld ⊢ <;> omega

namespace Server
variable {s : Server} {event : Event}

/-- The accept loop takes a slot. -/
def takes (s : Server) : Event → Bool
  | .takeSlot => s.accepting && !s.slotHeld && 0 < s.freeSlots
  | _ => false

/-- The accept loop has waited in vain with a slot. -/
def fails (s : Server) : Event → Bool
  | .acceptFailed => s.accepting && s.slotHeld
  | _ => false

/-- The accept loop ends while it waits with a slot. -/
def abandons (s : Server) : Event → Bool
  | .endAccepting => s.accepting && s.stopRequested && s.slotHeld
  | _ => false

/-- The slots as the accept loop and the connections have them. -/
def slots (s : Server) : Nat × Bool × Tracker := (s.freeSlots, s.slotHeld, s.connections)

theorem slots_beginStart (s : Server) : (s.step .beginStart).slots = s.slots := by
  simp only [Server.step]
  split
  case isTrue => rfl
  case isFalse =>
    cases hBegun : s.beginStart with
    | error cause => rfl
    | ok t =>
      obtain ⟨-, -, rfl⟩ := beginStart_eq_ok_iff.mp hBegun
      rfl

theorem slots_finishStart (s : Server) (bound : StartResult) :
    (s.step (.finishStart bound)).slots = s.slots := by
  simp only [Server.step]
  split
  case isTrue => cases bound <;> rfl
  case isFalse => rfl

theorem slots_beginShutdown (s : Server) : (s.step .beginShutdown).slots = s.slots := by
  simp only [Server.step, beginShutdown]
  split <;> rfl

theorem slots_continueShutdown (s : Server) (patient : Bool) :
    (s.step (.continueShutdown patient)).slots = s.slots := by
  simp only [Server.step, continueShutdown]
  split
  case h_1 | h_2 | h_3 => split <;> rfl
  case h_4 | h_5 => rfl

/-- As long as no connection comes or ends, the accept loop has one slot more or less than before, and the
free ones are the others. -/
theorem step_slots (s : Server) (hTaken : event ≠ .accepted) (hEnded : event ≠ .connectionEnded) :
    (s.step event).connections = s.connections ∧
    (s.step event).freeSlots + (s.step event).slotHeld.toNat = s.freeSlots + s.slotHeld.toNat ∧
    (s.step event).slotHeld.toNat + (s.fails event).toNat + (s.abandons event).toNat =
      s.slotHeld.toNat + (s.takes event).toNat := by
  have hRest {t : Server} (hSame : t.slots = s.slots) : t.connections = s.connections ∧
      t.freeSlots + t.slotHeld.toNat = s.freeSlots + s.slotHeld.toNat ∧
      t.slotHeld.toNat + 0 + 0 = s.slotHeld.toNat + 0 := by
    simp only [slots, Prod.mk.injEq] at hSame
    simp [hSame]
  cases event with
  | accepted => exact absurd rfl hTaken
  | connectionEnded => exact absurd rfl hEnded
  | takeSlot =>
    simp only [Server.step, takeSlot, takes, fails, abandons]
    split
    case isTrue hTakes =>
      have hFree : s.slotHeld = false ∧ 0 < s.freeSlots := by simp_all
      rw [hTakes, hFree.1]
      exact ⟨rfl, Nat.sub_add_cancel hFree.2, rfl⟩
    case isFalse hStays => simp [hStays]
  | acceptFailed =>
    simp only [Server.step, acceptFailed, releaseSlot, takes, fails, abandons]
    cases hAccepting : s.accepting <;> cases hHeld : s.slotHeld <;> simp [hHeld]
  | endAccepting =>
    simp only [Server.step, endAccepting, releaseSlot, takes, fails, abandons]
    cases s.accepting <;> cases s.stopRequested <;> cases hHeld : s.slotHeld <;> simp [hHeld]
  | beginStart => exact hRest s.slots_beginStart
  | finishStart bound => exact hRest (s.slots_finishStart bound)
  | stop => exact hRest rfl
  | beginShutdown => exact hRest s.slots_beginShutdown
  | continueShutdown patient => exact hRest (s.slots_continueShutdown patient)

/-- To the life of a server it makes no difference how its connections end. -/
theorem move_seen (s : Server) (part : Visit.Part) : s.Move .connectionEnded none (s.seen part) := by
  cases part <;> exact .still _ _ _ nofun nofun fun _ => rfl

end Server

namespace Serving
variable {v w : Serving} {event : Event} {number : Nat} {part : Visit.Part}

/-- All that an event can do. -/
inductive Move (v : Serving) : Event → Serving → Prop
  | host {event : Server.Event} (hTaken : event ≠ .accepted) (hEnded : event ≠ .connectionEnded) :
    Move v (.server event) { v with server := v.server.step event }
  | accept (hAccepting : v.server.accepting = true) (hHeld : v.server.slotHeld = true) :
    Move v (.server .accepted) { server := v.server.step .accepted, visits := v.visits ++ [.waiting] }
  | visit {number : Nat} {part : Visit.Part} {visit next : Visit} (hVisit : v.visits[number]? = some visit)
    (hNext : visit.next? part = some next) :
    Move v (.visit number part) { server := v.server.seen part, visits := v.visits.set number next }
  | none {event : Event} (hHost : ∀ e, event = .server e → e = .accepted ∨ e = .connectionEnded) :
    Move v event v

theorem step_server (v : Serving) {event : Server.Event} (hTaken : event ≠ .accepted)
    (hEnded : event ≠ .connectionEnded) :
    v.step (.server event) = { v with server := v.server.step event } := by
  cases event with
  | accepted => exact absurd rfl hTaken
  | connectionEnded => exact absurd rfl hEnded
  | _ => rfl

theorem move_step (v : Serving) (event : Event) : v.Move event (v.step event) := by
  cases event with
  | server event =>
    by_cases hTaken : event = .accepted
    · subst hTaken
      change v.Move _ v.accept
      unfold accept
      split
      case isTrue hTakes =>
        obtain ⟨hAccepting, hHeld⟩ := Bool.and_eq_true_iff.mp hTakes
        exact .accept hAccepting hHeld
      case isFalse => exact .none fun e he => .inl (Event.server.inj he).symm
    · by_cases hEnded : event = .connectionEnded
      · subst hEnded
        exact .none fun e he => .inr (Event.server.inj he).symm
      · rw [v.step_server hTaken hEnded]
        exact .host hTaken hEnded
  | visit number part =>
    change v.Move _ (v.visit number part)
    unfold visit
    cases hNext : v.visits[number]?.bind (·.next? part) with
    | none => exact .none nofun
    | some next =>
      obtain ⟨visit, hVisit, hNext⟩ := Option.bind_eq_some_iff.mp hNext
      exact .visit hVisit hNext

/-- What is true of a server behind a run in which its accept loop has taken so many slots, and has failed
or ended with so many of them. -/
structure Sound (name : String) (maxConnections : Nat) (v : Serving) (taken failed abandoned : Nat) :
    Prop where
  reached : ∃ past results, Server.Reached name v.server past results
  slots : v.server.freeSlots + v.holders + v.server.slotHeld.toNat = maxConnections
  taken_eq : taken = v.visits.length + failed + abandoned + v.server.slotHeld.toNat
  tracked : v.server.connections.active = v.visits.countP Visit.isTracked

/-- Whether the accept loop does this at an event. -/
def does (deed : Server → Server.Event → Bool) (v : Serving) : Event → Bool
  | .server event => deed v.server event
  | .visit _ _ => false

/-- How often the accept loop does this in a run. -/
def tally (deed : Server → Server.Event → Bool) (v : Serving) : List Event → Nat
  | [] => 0
  | event :: events => (v.does deed event).toNat + (v.step event).tally deed events

namespace Sound
variable {name : String} {maxConnections taken failed abandoned : Nat}

theorem start (name bindAddress : String) (maxConnections : Nat) :
    Sound name maxConnections (.new name bindAddress maxConnections) 0 0 0 where
  reached := ⟨[], [], .start name bindAddress maxConnections⟩
  slots := rfl
  taken_eq := rfl
  tracked := rfl

theorem move (h : Sound name maxConnections v taken failed abandoned) (hMove : v.Move event w) :
    Sound name maxConnections w (taken + (v.does Server.takes event).toNat)
      (failed + (v.does Server.fails event).toNat) (abandoned + (v.does Server.abandons event).toNat) := by
  obtain ⟨⟨past, results, hReached⟩, hSlots, hTaken, hTracked⟩ := h
  cases hMove with
  | @host event hNone hEnded =>
    obtain ⟨hConnections, hFree, hHeld⟩ := v.server.step_slots hNone hEnded
    refine ⟨⟨_, _, hReached.move (Server.move_step v.server event)⟩, ?_, ?_, ?_⟩
    · change (v.server.step event).freeSlots + v.holders + (v.server.step event).slotHeld.toNat = _
      omega
    · simp only [does]
      omega
    · rw [hConnections, hTracked]
  | accept hAccepting hHeld =>
    have hStep : v.server.step .accepted =
        { v.server with slotHeld := false, connections := v.server.connections.track.2 } := by
      simp [Server.step, Server.accepted, hAccepting, hHeld]
    refine ⟨⟨_, _, hReached.move (Server.move_step v.server .accepted)⟩, ?_, ?_, ?_⟩
    · rw [hStep]
      simp only [holders, List.countP_append] at hSlots ⊢
      simpa [hHeld, Visit.holdsSlot, Nat.add_assoc] using hSlots
    · rw [hStep, hTaken, hHeld]
      simp [does, Server.takes, Server.fails, Server.abandons]
      omega
    · simp [hStep, hTracked, Tracker.track, Visit.isTracked]
  | @visit number part visit next hVisit hNext =>
    have hTurn := Visit.turn_of_next? hNext
    have hSlot := hTurn.holdsSlot
    have hEntry := hTurn.isTracked
    have hHolders := countP_set (b := next) hVisit Visit.holdsSlot
    have hEntries := countP_set (b := next) hVisit Visit.isTracked
    have hSeen : (v.server.seen part).freeSlots = v.server.freeSlots + Visit.frees part ∧
        (v.server.seen part).slotHeld = v.server.slotHeld ∧
        (v.server.seen part).connections.active = v.server.connections.active - Visit.leaves part := by
      cases part <;> exact ⟨rfl, rfl, rfl⟩
    obtain ⟨hFree, hHeld, hActive⟩ := hSeen
    refine ⟨⟨_, _, hReached.move (v.server.move_seen part)⟩, ?_, ?_, ?_⟩
    · simp only [holders, hFree, hHeld] at hSlots ⊢
      omega
    · rw [hHeld, List.length_set, hTaken]
      rfl
    · simp only [hActive]
      omega
  | none hHost =>
    have hNothing (deed : Server → Server.Event → Bool) (hOther : deed v.server .accepted = false)
        (hLast : deed v.server .connectionEnded = false) : v.does deed event = false := by
      cases event with
      | server event => rcases hHost event rfl with rfl | rfl <;> assumption
      | visit => rfl
    rw [hNothing Server.takes rfl rfl, hNothing Server.fails rfl rfl, hNothing Server.abandons rfl rfl]
    exact ⟨⟨past, results, hReached⟩, hSlots, hTaken, hTracked⟩

theorem run (h : Sound name maxConnections v taken failed abandoned) (events : List Event) :
    Sound name maxConnections (v.run events) (taken + v.tally Server.takes events)
      (failed + v.tally Server.fails events) (abandoned + v.tally Server.abandons events) := by
  induction events generalizing v taken failed abandoned with
  | nil => exact h
  | cons event events ih =>
    have hStep := ih (h.move (v.move_step event))
    rwa [Nat.add_assoc, Nat.add_assoc failed, Nat.add_assoc abandoned] at hStep

theorem handling_le (h : Sound name maxConnections v taken failed abandoned) :
    v.handling ≤ maxConnections := by
  have hHolds : v.handling ≤ v.holders :=
    List.countP_mono_left fun visit _ hHandling => by
      rw [of_decide_eq_true hHandling]
      rfl
  have hSlots := h.slots
  omega

end Sound

/-! What is true of a task whatever it does is true of it behind any run. -/

section Keeps
variable {P : Visit → Prop} (hKeeps : ∀ visit part next, Visit.Turn visit part next → P visit → P next)
  {visit : Visit} (hVisit : v.visits[number]? = some visit) (hHolds : P visit)
include hKeeps hVisit hHolds

theorem Move.keeps (hMove : v.Move event w) : ∃ next, w.visits[number]? = some next ∧ P next := by
  cases hMove with
  | host | none => exact ⟨visit, hVisit, hHolds⟩
  | accept =>
    have hLt := (List.getElem?_eq_some_iff.mp hVisit).1
    exact ⟨visit, (List.getElem?_append_left hLt).trans hVisit, hHolds⟩
  | @visit other part found next hFound hNext =>
    by_cases hSame : other = number
    · subst hSame
      cases hVisit.symm.trans hFound
      have hLt := (List.getElem?_eq_some_iff.mp hVisit).1
      exact ⟨next, List.getElem?_set_self hLt, hKeeps _ _ _ (Visit.turn_of_next? hNext) hHolds⟩
    · exact ⟨visit, (List.getElem?_set_ne hSame).trans hVisit, hHolds⟩

theorem keeps_run (events : List Event) : ∃ next, (v.run events).visits[number]? = some next ∧ P next := by
  induction events generalizing v visit with
  | nil => exact ⟨visit, hVisit, hHolds⟩
  | cons event events ih =>
    obtain ⟨next, hNext, hStill⟩ := Move.keeps hKeeps hVisit hHolds (v.move_step event)
    exact ih hNext hStill

end Keeps

/-! ## Behind the wait for the connections -/

/-- The accept loop has ended, and no task has its entry any more. -/
structure Deserted (v : Serving) : Prop where
  quiet : v.server.Quiet
  gone : ∀ visit ∈ v.visits, visit.isTracked = false

namespace Deserted

theorem isOver (h : v.Deserted) {visit : Visit} (hVisit : visit ∈ v.visits) : visit.isOver = true :=
  Visit.isOver_of_isTracked (h.gone visit hVisit)

theorem handling_eq (h : v.Deserted) : v.handling = 0 := by
  refine List.countP_eq_zero.mpr fun visit hVisit hHandling => ?_
  have hOver := h.isOver hVisit
  rw [of_decide_eq_true hHandling] at hOver
  cases hOver

theorem move (h : v.Deserted) (hMove : v.Move event w) :
    w.Deserted ∧ w.visits.length = v.visits.length := by
  cases hMove with
  | @host event => exact ⟨⟨h.quiet.step event, h.gone⟩, rfl⟩
  | accept hAccepting => cases hAccepting.symm.trans h.quiet.ended
  | @visit number part visit next hVisit hNext =>
    have hGone := h.gone visit (List.mem_of_getElem? hVisit)
    have hTurn := Visit.turn_of_next? hNext
    refine ⟨⟨(h.quiet.move (v.server.move_seen part)).1, fun other hOther => ?_⟩, List.length_set⟩
    rcases List.mem_or_eq_of_mem_set hOther with hOld | rfl
    · exact h.gone other hOld
    · cases hTurn with
      | freeSlot => exact hGone
      | leave => rfl
      | call | ended => cases hGone
  | none => exact ⟨h, rfl⟩

theorem run (h : v.Deserted) (events : List Event) :
    (v.run events).Deserted ∧ (v.run events).visits.length = v.visits.length := by
  induction events generalizing v with
  | nil => exact ⟨h, rfl⟩
  | cons event events ih =>
    obtain ⟨hStep, hLength⟩ := h.move (v.move_step event)
    obtain ⟨hLast, hLater⟩ := ih hStep
    exact ⟨hLast, hLater.trans hLength⟩

end Deserted

section Hook
variable {name : String} {maxConnections taken failed abandoned : Nat}

/-- Unless the wait is given up, the hook runs in an idle server. -/
theorem Sound.deserted (h : Sound name maxConnections v taken failed abandoned)
    (hRuns : v.server.hookRuns < (v.server.step (.continueShutdown true)).hookRuns) :
    v.server.connections.active = 0 ∧ v.Deserted := by
  obtain ⟨past, results, hReached⟩ := h.reached
  have hDraining : v.server.teardown = .draining := (Server.move_step v.server _).draining_of_lt hRuns
  have hIdle : v.server.connections.active = 0 := by
    simp only [Server.step, Server.continueShutdown, hDraining] at hRuns
    split at hRuns
    case isTrue hEnds => simpa [Tracker.isIdle] using hEnds
    case isFalse => exact absurd hRuns (Nat.lt_irrefl _)
  refine ⟨hIdle, hReached.quiet (by rw [hDraining]; decide), fun visit hVisit => ?_⟩
  have hNone := List.countP_eq_zero.mp (h.tracked ▸ hIdle)
  exact Bool.eq_false_iff.mpr (hNone visit hVisit)

end Hook

end Serving

/-! ## Connections that end at once

A server whose connections end at once is what a server whose tasks let go of what they have in parts looks
like to anybody who does not see the parts.
-/

namespace Server
variable {s : Server} {event : Event}

/-- With so many slots and entries already given back. -/
def ahead (s : Server) (slots entries : Nat) : Server :=
  { s with
    freeSlots := s.freeSlots + slots
    connections := { s.connections with active := s.connections.active - entries } }

theorem ahead_step (s : Server) (slots entries : Nat) (hTaken : event ≠ .accepted)
    (hEnded : event ≠ .connectionEnded) :
    ∃ events, (s.step event).ahead slots entries = (s.ahead slots entries).run events := by
  cases event with
  | accepted => exact absurd rfl hTaken
  | connectionEnded => exact absurd rfl hEnded
  | beginStart =>
    refine ⟨[.beginStart], ?_⟩
    cases hStarting : s.starting with
    | true => simp [Server.run, Server.step, ahead, hStarting]
    | false =>
      cases hState : s.state <;> cases hStop : s.stopRequested <;>
        simp [Server.run, Server.step, ahead, beginStart, hStarting, hState, hStop, Except.toOption]
  | finishStart bound =>
    refine ⟨[.finishStart bound], ?_⟩
    cases bound <;> cases hStarting : s.starting <;>
      simp [Server.run, Server.step, ahead, finishStart, hStarting]
  | stop => exact ⟨[.stop], rfl⟩
  | takeSlot =>
    by_cases hFree : 0 < s.freeSlots
    · refine ⟨[.takeSlot], ?_⟩
      have hMore : 0 < s.freeSlots + slots := Nat.add_pos_left hFree slots
      cases hAccepting : s.accepting <;> cases hHeld : s.slotHeld <;>
        simp [Server.run, Server.step, takeSlot, ahead, hFree, hMore, hAccepting, hHeld]
      omega
    · refine ⟨[], ?_⟩
      simp [Server.step, takeSlot, hFree, Server.run]
  | acceptFailed =>
    refine ⟨[.acceptFailed], ?_⟩
    cases hAccepting : s.accepting <;> cases hHeld : s.slotHeld <;>
      simp [Server.run, Server.step, acceptFailed, releaseSlot, ahead, hAccepting, hHeld, Nat.add_right_comm]
  | endAccepting =>
    refine ⟨[.endAccepting], ?_⟩
    cases hAccepting : s.accepting <;> cases hStop : s.stopRequested <;> cases hHeld : s.slotHeld <;>
      simp [Server.run, Server.step, endAccepting, releaseSlot, ahead, hAccepting, hStop, hHeld,
        Nat.add_right_comm]
  | beginShutdown =>
    refine ⟨[.beginShutdown], ?_⟩
    by_cases hActive : s.teardown = .none <;>
      simp [Server.run, Server.step, beginShutdown, isActive, Server.stop, ahead, hActive]
  | continueShutdown patient =>
    cases hStage : s.teardown with
    | none | done => exact ⟨[], by simp [Server.run, Server.step, continueShutdown, hStage]⟩
    | requested =>
      refine ⟨[.continueShutdown patient], ?_⟩
      cases hStarting : s.starting <;>
        simp [Server.run, Server.step, continueShutdown, ahead, hStage, hStarting]
    | awaitingAccept =>
      refine ⟨[.continueShutdown patient], ?_⟩
      cases hEnds : s.accepting <;> simp [Server.run, Server.step, continueShutdown, ahead, hStage, hEnds]
    | draining =>
      by_cases hEnds : s.connections.active = 0 ∨ patient = false
      · refine ⟨[.continueShutdown patient], ?_⟩
        have hLater : s.connections.active - entries = 0 ∨ patient = false := hEnds.imp_left (by omega)
        simp [Server.run, Server.step, continueShutdown, ahead, hStage, Tracker.isIdle, hEnds, hLater]
      · refine ⟨[], ?_⟩
        simp [Server.run, Server.step, continueShutdown, hStage, Tracker.isIdle, hEnds]

theorem ahead_seen (s : Server) (part : Visit.Part) (slots entries : Nat) :
    (s.seen part).ahead slots entries = s.ahead (slots + Visit.frees part) (entries + Visit.leaves part) := by
  cases part with
  | call | ended => rfl
  | freeSlot => simp [seen, ahead, Visit.frees, Visit.leaves, Nat.add_right_comm, Nat.add_assoc]
  | leave =>
    simp [seen, ahead, Visit.frees, Visit.leaves, Tracker.release, Nat.sub_sub, Nat.add_comm 1]

theorem ahead_succ {slots entries : Nat} (hMore : entries < s.connections.active) :
    s.ahead (slots + 1) (entries + 1) = (s.ahead slots entries).step .connectionEnded := by
  have hSome : s.connections.active - entries ≠ 0 := by omega
  simp [Server.step, connectionEnded, ahead, hSome, Tracker.release, Nat.sub_sub, Nat.add_assoc]

end Server

namespace Visit
variable {visit next : Visit} {part : Part}

def owesSlot (visit : Visit) : Bool := visit.isOver && visit.holdsSlot

def owesEntry (visit : Visit) : Bool := visit.isOver && visit.isTracked

/-- The handler of this task ends. -/
def ends (part : Part) : Nat :=
  match part with
  | .ended _ => 1
  | _ => 0

theorem Turn.owesSlot (h : visit.Turn part next) :
    next.owesSlot.toNat + frees part = visit.owesSlot.toNat + ends part := by
  cases h <;> rfl

theorem Turn.owesEntry (h : visit.Turn part next) :
    next.owesEntry.toNat + leaves part = visit.owesEntry.toNat + ends part := by
  cases h <;> rfl

end Visit

namespace Serving
variable {v w : Serving} {event : Event} {name : String} {maxConnections taken failed abandoned : Nat}

/-- The server as it is once all tasks that are over have let go of what they have. -/
def settled (v : Serving) : Server :=
  v.server.ahead (v.visits.countP Visit.owesSlot) (v.visits.countP Visit.owesEntry)

theorem Sound.countP_owesEntry_le (h : Sound name maxConnections v taken failed abandoned) :
    v.visits.countP Visit.owesEntry ≤ v.server.connections.active := by
  rw [h.tracked]
  exact List.countP_mono_left fun visit _ hOwes => (Bool.and_eq_true_iff.mp hOwes).2

theorem Sound.exists_settled_move (h : Sound name maxConnections v taken failed abandoned)
    (hMove : v.Move event w) : ∃ events, w.settled = v.settled.run events := by
  have hOwed := h.countP_owesEntry_le
  cases hMove with
  | host hTaken hEnded => exact v.server.ahead_step _ _ hTaken hEnded
  | accept hAccepting hHeld =>
    refine ⟨[.accepted], ?_⟩
    have hTracked : v.server.connections.active + 1 - v.visits.countP Visit.owesEntry =
        v.server.connections.active - v.visits.countP Visit.owesEntry + 1 := Nat.sub_add_comm hOwed
    simp [settled, Server.run, Server.step, Server.ahead, Server.accepted, hAccepting, hHeld, Tracker.track,
      Visit.owesSlot, Visit.owesEntry, Visit.isOver, hTracked]
  | @visit number part visit next hVisit hNext =>
    have hTurn := Visit.turn_of_next? hNext
    have hSlots : (v.visits.set number next).countP Visit.owesSlot + Visit.frees part =
        v.visits.countP Visit.owesSlot + Visit.ends part := by
      have hSet := countP_set (b := next) hVisit Visit.owesSlot
      have hSlot := hTurn.owesSlot
      omega
    have hEntries : (v.visits.set number next).countP Visit.owesEntry + Visit.leaves part =
        v.visits.countP Visit.owesEntry + Visit.ends part := by
      have hSet := countP_set (b := next) hVisit Visit.owesEntry
      have hEntry := hTurn.owesEntry
      omega
    have hSettled : settled ⟨v.server.seen part, v.visits.set number next⟩ =
        v.server.ahead (v.visits.countP Visit.owesSlot + Visit.ends part)
          (v.visits.countP Visit.owesEntry + Visit.ends part) := by
      rw [settled, Server.ahead_seen, hSlots, hEntries]
    cases part with
    | ended crashed =>
      have hMore : v.visits.countP Visit.owesEntry < v.server.connections.active := by
        have hLater : (v.visits.set number next).countP Visit.owesEntry ≤ v.server.connections.active :=
          (h.move (.visit hVisit hNext)).countP_owesEntry_le
        rw [← Nat.add_one_le_iff]
        exact hEntries ▸ hLater
      exact ⟨[.connectionEnded], hSettled.trans (Server.ahead_succ hMore)⟩
    | call | freeSlot | leave => exact ⟨[], hSettled⟩
  | none => exact ⟨[], rfl⟩

theorem Sound.exists_settled_run (h : Sound name maxConnections v taken failed abandoned)
    (events : List Event) : ∃ hosted, (v.run events).settled = v.settled.run hosted := by
  induction events generalizing v taken failed abandoned with
  | nil => exact ⟨[], rfl⟩
  | cons event events ih =>
    obtain ⟨first, hFirst⟩ := h.exists_settled_move (v.move_step event)
    obtain ⟨later, hLater⟩ := ih (h.move (v.move_step event))
    exact ⟨first ++ later, by rw [Server.run_append, ← hFirst]; exact hLater⟩

/-! Tasks may also let go of all they have as soon as they are over. -/

/-- No task that is over has anything left. -/
def IsSettled (v : Serving) : Prop := ∀ visit ∈ v.visits, visit.isOver → visit = .finished false false false

theorem run_append (v : Serving) (before after : List Event) :
    v.run (before ++ after) = (v.run before).run after := List.foldl_append

/-- The events by which a task comes to its end at once. -/
def wholeVisit (number : Nat) : List Event :=
  [.visit number .call, .visit number (.ended false), .visit number .freeSlot, .visit number .leave]

theorem step_set {s : Server} {visits : List Visit} {number : Nat} (hLt : number < visits.length)
    (visit : Visit) (part : Visit.Part) : step ⟨s, visits.set number visit⟩ (.visit number part) =
      match visit.next? part with
      | some next => ⟨s.seen part, visits.set number next⟩
      | none => ⟨s, visits.set number visit⟩ := by
  simp only [step, Serving.visit, List.getElem?_set_self hLt, Option.bind_some]
  cases visit.next? part with
  | none => rfl
  | some next => simp

theorem run_wholeVisit {number : Nat} {visit : Visit} (hVisit : v.visits[number]? = some visit)
    (hUnder : visit.isOver = false) : v.run (wholeVisit number) =
      ⟨(v.server.seen .freeSlot).seen .leave, v.visits.set number (.finished false false false)⟩ := by
  obtain ⟨hLt, hAt⟩ := List.getElem?_eq_some_iff.mp hVisit
  have hSet : v = ⟨v.server, v.visits.set number visit⟩ := by rw [← hAt, List.set_getElem_self]
  rw [hSet]
  cases visit with
  | finished => cases hUnder
  | waiting | handling => simp [wholeVisit, run, step_set hLt, Visit.next?, Server.seen]

namespace IsSettled

theorem holders_eq (h : v.IsSettled) : v.holders = v.visits.countP Visit.isTracked := by
  refine List.countP_congr fun visit hVisit => ?_
  have hOver := h visit hVisit
  cases visit with
  | waiting | handling => exact Iff.rfl
  | finished => rw [hOver rfl]; exact Iff.rfl

theorem accept (h : v.IsSettled) : v.accept.server = v.server.accepted ∧ v.accept.IsSettled := by
  unfold Serving.accept
  split
  case isTrue =>
    refine ⟨rfl, fun visit hVisit hOver => ?_⟩
    rcases List.mem_append.mp hVisit with hOld | hNew
    · exact h visit hOld hOver
    · rw [List.mem_singleton.mp hNew] at hOver
      cases hOver
  case isFalse hStays => exact ⟨by simp [Server.accepted, hStays], h⟩

theorem exists_connectionEnded (h : v.IsSettled)
    (hSound : Sound name maxConnections v taken failed abandoned) :
    ∃ events, (v.run events).server = v.server.connectionEnded ∧ (v.run events).IsSettled := by
  by_cases hNone : v.server.connections.active = 0
  · exact ⟨[], by simp [run, Server.connectionEnded, hNone], h⟩
  · have hSome : 0 < v.visits.countP Visit.isTracked := hSound.tracked ▸ Nat.pos_of_ne_zero hNone
    obtain ⟨visit, hVisit, hTracked⟩ := List.countP_pos_iff.mp hSome
    obtain ⟨number, hNumber⟩ := List.getElem?_of_mem hVisit
    have hUnder : visit.isOver = false := by
      refine Bool.eq_false_iff.mpr fun hOver => ?_
      rw [h visit hVisit hOver] at hTracked
      cases hTracked
    refine ⟨wholeVisit number, ?_⟩
    rw [run_wholeVisit hNumber hUnder]
    refine ⟨by simp [Server.seen, Server.connectionEnded, hNone], fun other hOther hOver => ?_⟩
    rcases List.mem_or_eq_of_mem_set hOther with hOld | rfl
    · exact h other hOld hOver
    · rfl

theorem exists_step (h : v.IsSettled) (hSound : Sound name maxConnections v taken failed abandoned)
    (event : Server.Event) :
    ∃ events, (v.run events).server = v.server.step event ∧ (v.run events).IsSettled := by
  by_cases hTaken : event = .accepted
  · subst hTaken
    exact ⟨[.server .accepted], h.accept⟩
  · by_cases hEnded : event = .connectionEnded
    · exact hEnded ▸ h.exists_connectionEnded hSound
    · have hStep : v.run [.server event] = _ := v.step_server hTaken hEnded
      exact ⟨[.server event], by rw [hStep], by rw [hStep]; exact h⟩

theorem exists_run (h : v.IsSettled) (hSound : Sound name maxConnections v taken failed abandoned)
    (hosted : List Server.Event) :
    ∃ events, (v.run events).server = v.server.run hosted ∧ (v.run events).IsSettled := by
  induction hosted generalizing v taken failed abandoned with
  | nil => exact ⟨[], rfl, h⟩
  | cons event hosted ih =>
    obtain ⟨first, hFirst, hStill⟩ := h.exists_step hSound event
    obtain ⟨later, hLater, hLast⟩ := ih hStill (hSound.run first)
    refine ⟨first ++ later, ?_⟩
    rw [run_append, hLater, hFirst]
    exact ⟨rfl, hLast⟩

end IsSettled

theorem length_visits (v : Serving) :
    v.visits.length = v.holders + v.visits.countP (fun visit => !visit.holdsSlot) := by
  rw [List.length_eq_countP_add_countP Visit.holdsSlot]
  simp [holders]

theorem step_freeSlot {number : Nat} {crashed entry : Bool}
    (hVisit : v.visits[number]? = some (.finished crashed true entry)) :
    let w := v.step (.visit number .freeSlot)
    w.server.freeSlots = v.server.freeSlots + 1 ∧ w.holders + 1 = v.holders ∧
      ∀ later, ∃ visit, (w.run later).visits[number]? = some visit ∧ visit.holdsSlot = false := by
  intro w
  have hStep : w = ⟨v.server.seen .freeSlot, v.visits.set number (.finished crashed false entry)⟩ := by
    simp [w, step, Serving.visit, hVisit, Visit.next?]
  have hAt : w.visits[number]? = some (.finished crashed false entry) := by
    rw [hStep]
    exact List.getElem?_set_self (List.getElem?_eq_some_iff.mp hVisit).1
  have hHolders := countP_set (b := .finished crashed false entry) hVisit Visit.holdsSlot
  refine ⟨by rw [hStep]; rfl, by rw [hStep]; exact hHolders,
    keeps_run (fun visit part next hTurn hFree => ?_) hAt rfl⟩
  cases hTurn with
  | leave => exact hFree
  | call | ended | freeSlot => cases hFree

/-- A wait for the connections is over exactly when none is left, and then the hook runs. -/
theorem hookRuns_continueShutdown (v : Serving) :
    v.server.hookRuns < (v.step (.server (.continueShutdown true))).server.hookRuns ↔
      v.server.teardown = .draining ∧ v.server.connections.active = 0 := by
  change _ < (v.server.continueShutdown true).hookRuns ↔ _
  cases hStage : v.server.teardown with
  | draining => by_cases hNone : v.server.connections.active = 0 <;>
      simp [Server.continueShutdown, hStage, Tracker.isIdle, hNone]
  | requested | awaitingAccept =>
    simp only [Server.continueShutdown, hStage, reduceCtorEq, false_and, iff_false]
    split <;> exact Nat.lt_irrefl _
  | none | done => simp [Server.continueShutdown, hStage]

/-- Who has the slots of a server behind a run in which its accept loop has taken so many of them, and has
failed or ended with so many of them. -/
structure Occupied (maxConnections : Nat) (v : Serving) (taken failed abandoned : Nat) : Prop where
  handling_le : v.handling ≤ maxConnections
  slots : v.server.freeSlots + v.holders + v.server.slotHeld.toNat = maxConnections
  /-- What has become of the slots that the accept loop has taken. -/
  taken_eq : taken = v.visits.length + failed + abandoned + v.server.slotHeld.toNat
  freed : v.server.freeSlots + taken =
    maxConnections + failed + abandoned + v.visits.countP (fun visit => !visit.holdsSlot)
  held : ∀ visit ∈ v.visits, visit.holdsSlot = false → visit.isOver = true
  released : ∀ number crashed entry, v.visits[number]? = some (.finished crashed true entry) →
    let w := v.step (.visit number .freeSlot)
    w.server.freeSlots = v.server.freeSlots + 1 ∧ w.holders + 1 = v.holders ∧
    ∀ later, ∃ visit, (w.run later).visits[number]? = some visit ∧ visit.holdsSlot = false
  tracked : v.server.connections.active = v.visits.countP Visit.isTracked
  /-- A wait for the connections is over exactly when none is left, and then the hook runs. -/
  waits : v.server.hookRuns < (v.step (.server (.continueShutdown true))).server.hookRuns ↔
    v.server.teardown = .draining ∧ v.server.connections.active = 0
  once : v.server.hookRuns = if v.server.teardown = .done then 1 else 0
  /-- Behind that wait no handler is called. -/
  drained : let drained := v.step (.server (.continueShutdown true))
    v.server.hookRuns < drained.server.hookRuns → v.handling = 0 ∧ v.server.connections.active = 0 ∧
      ∀ later, (drained.run later).handling = 0 ∧ (drained.run later).visits.length = v.visits.length ∧
        ∀ visit ∈ (drained.run later).visits, visit.isOver = true

theorem Sound.occupied {taken failed abandoned : Nat} (h : Sound name maxConnections v taken failed abandoned) :
    Occupied maxConnections v taken failed abandoned where
  handling_le := h.handling_le
  slots := h.slots
  taken_eq := h.taken_eq
  freed := by
    have hAll := v.length_visits
    have hSlots := h.slots
    have hTaken := h.taken_eq
    omega
  held visit _ := Visit.isOver_of_holdsSlot
  released number crashed entry hVisit := step_freeSlot hVisit
  tracked := h.tracked
  waits := v.hookRuns_continueShutdown
  once := by
    obtain ⟨past, results, hReached⟩ := h.reached
    exact hReached.hook
  drained hRuns := by
    obtain ⟨hIdle, hDeserted⟩ := h.deserted hRuns
    obtain ⟨hNext, hLength⟩ := hDeserted.move (v.move_step (.server (.continueShutdown true)))
    refine ⟨hDeserted.handling_eq, hIdle, fun later => ?_⟩
    obtain ⟨hLast, hLater⟩ := hNext.run later
    exact ⟨hLast.handling_eq, hLater.trans hLength, fun visit => hLast.isOver⟩

/-- A slot that was taken is free again once its wait was in vain, or the handler of its connection has
ended; all others are free, or wait, or belong to a connection. So no more handlers are called at a time than
there are slots. A shutdown that waits for the connections runs its hook when it finds none, and no handler
is called behind it. The same holds of connections that end at once. -/
theorem slots_follow_connections (name bindAddress : String) (maxConnections : Nat) (events : List Event) :
    let first := Serving.new name bindAddress maxConnections
    let v := first.run events
    Occupied maxConnections v (first.tally Server.takes events) (first.tally Server.fails events)
      (first.tally Server.abandons events) ∧
    (∃ hosted, v.settled = (Server.new name bindAddress maxConnections).run hosted) ∧
    ∀ hosted, let s := (Server.new name bindAddress maxConnections).run hosted
      (∃ events, (first.run events).server = s) ∧
      s.freeSlots + s.connections.active + s.slotHeld.toNat = maxConnections := by
  intro first v
  have hFirst : Sound name maxConnections first 0 0 0 := .start name bindAddress maxConnections
  have hNone : first.IsSettled := nofun
  have h := hFirst.run events
  simp only [Nat.zero_add] at h
  refine ⟨h.occupied, ?_, fun hosted => ?_⟩
  · obtain ⟨hosted, hSettled⟩ := hFirst.exists_settled_run events
    exact ⟨hosted, hSettled⟩
  · intro s
    obtain ⟨events, hServer, hSettled⟩ := hNone.exists_run hFirst hosted
    have hSound := hFirst.run events
    have hSlots := hSound.slots
    rw [hSettled.holders_eq, ← hSound.tracked, hServer] at hSlots
    exact ⟨⟨events, hServer⟩, hSlots⟩

end Serving
end Switchyard.Net
