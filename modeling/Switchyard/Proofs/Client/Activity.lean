import Switchyard.Proofs.Client.Completion
import Switchyard.Proofs.Client.Flow

/-! # Active and inactive connections

A connection is active until it is asked to end or its task has ended, and never again after that. An
inactive one accepts no message, begins none and hands the transport no more bytes. Its messages all
have their outcomes once the task has ended.
-/
namespace Switchyard.Client
open Net
set_option autoImplicit false

/-- A handle after some time. One that somebody has closed is closing, as `close` relies on. -/
structure Handle.IsLater (h h' : Handle) : Prop where
  id : h'.id = h.id
  closing : h.closing = true → h'.closing = true
  sound : (h.closed = true → h.closing = true) → h'.closed = true → h'.closing = true

namespace Handle
variable {h h' h'' : Handle}

theorem IsLater.refl (h : Handle) : IsLater h h :=
  ⟨rfl, fun hClosing => hClosing, fun hSound => hSound⟩

theorem isLater_close (h : Handle) : IsLater h h.close.2 := by
  unfold close
  split
  · exact .refl h
  · constructor
    · rfl
    · intro _
      rfl
    · intro _ _
      rfl

theorem isLater_parentCancelled (h : Handle) : IsLater h h.parentCancelled := by
  constructor
  · rfl
  · intro _
    rfl
  · intro _ _
    rfl

theorem closed_close (h : Handle) : h.close.2.closed = true := by
  unfold close
  split
  · assumption
  · rfl

theorem isActive_close (hSound : h.closed = true → h.closing = true) : h.close.2.isActive = false := by
  have hClosing := h.isLater_close.sound hSound h.closed_close
  rw [isActive, hClosing, Bool.not_true]

theorem IsLater.isActive_eq_false (hLater : IsLater h h') (hInactive : h.isActive = false) :
    h'.isActive = false := by
  have hClosing : h.closing = true := by simpa [isActive] using hInactive
  rw [isActive, hLater.closing hClosing, Bool.not_true]

end Handle

theorem Message.isLater_expire (m : Message) (h : Handle) (metrics : Metrics) :
    Handle.IsLater h (m.expire h metrics).2.2.1 := by
  unfold expire
  split
  · dsimp only
    split
    · exact h.isLater_close
    · exact .refl h
  · exact .refl h

namespace Connection
variable {γ : Type}

theorem step_send_of_ok (codec : Codec γ) {c sent : Connection γ} {m : Message} {k : Nat}
    (hSend : c.send m = .ok (k, sent)) : c.step codec (.send m) = sent := by
  simp [step, hSend, Except.map, Except.toOption]

theorem step_send_of_error (codec : Codec γ) {c : Connection γ} {m : Message} {cause : Error}
    (hSend : c.send m = .error cause) : c.step codec (.send m) = c := by
  simp [step, hSend, Except.map, Except.toOption]

@[simp] theorem handle_complete (c : Connection γ) (k : Nat) (outcome : Outcome) :
    (c.complete k outcome).handle = c.handle := by
  rw [complete_eq]

theorem isLater_finish (c : Connection γ) (termination : Termination) :
    Handle.IsLater c.handle (c.finish termination).handle := by
  rw [finish_eq]
  exact c.handle.isLater_close

theorem isLater_expire (c : Connection γ) (k : Nat) (metrics : Metrics) :
    Handle.IsLater c.handle (c.expire k metrics).2.1.handle := by
  unfold expire
  split
  · exact .refl c.handle
  · exact Message.isLater_expire _ c.handle metrics

theorem isLater_shut (c : Connection γ) : Handle.IsLater c.handle c.shut.handle := by
  unfold shut
  split
  · rw [← c.handle_complete]
    exact isLater_finish _ _
  · exact c.isLater_finish _

theorem isLater_begin (codec : Codec γ) (c : Connection γ) (k : Nat) (m : Message) :
    Handle.IsLater c.handle (c.begin codec k m).handle := by
  unfold begin
  split
  · rw [← c.handle_complete]
    exact isLater_finish _ _
  · exact .refl c.handle

theorem isLater_deliver (c : Connection γ) (payload : Bytes) :
    Handle.IsLater c.handle (c.deliver payload).handle := by
  unfold deliver
  split
  · exact c.isLater_finish _
  · rw [handle_complete]
    exact .refl c.handle

theorem isLater_decode (codec : Codec γ) (c : Connection γ) :
    Handle.IsLater c.handle (c.decode codec).handle := by
  unfold decode
  split
  case h_1 => exact c.isLater_finish _
  case h_2 payload rest state _ =>
    exact isLater_deliver { c with incoming := rest, codec := state } payload
  case h_3 =>
    split
    · exact c.isLater_finish _
    · exact .refl c.handle

theorem isLater_turn (codec : Codec γ) (c : Connection γ) :
    Handle.IsLater c.handle (c.turn codec).handle := by
  unfold turn
  split
  · exact .refl c.handle
  · exact c.isLater_shut
  · exact isLater_begin codec { c with queued := c.queued.tail } _ _
  · exact c.isLater_finish _
  · exact c.isLater_decode codec

theorem isLater_flushed (c : Connection γ) : Handle.IsLater c.handle c.flushed.handle := by
  unfold flushed
  split
  · dsimp only
    split
    · exact .refl c.handle
    · rw [handle_complete]
      exact .refl c.handle
  · exact .refl c.handle

theorem isLater_writeFailed (c : Connection γ) (cause : String) :
    Handle.IsLater c.handle (c.writeFailed cause).handle := by
  have hLast (k : Nat) : Handle.IsLater c.handle ((if c.expectsReply k then c
      else c.complete k (.error (.connectionFailed c.id cause))).finish (.failed (.io cause))).handle := by
    split
    · exact c.isLater_finish _
    · rw [← c.handle_complete]
      exact isLater_finish _ _
  unfold writeFailed
  split
  · exact hLast _
  · exact hLast _
  · exact .refl c.handle

theorem isLater_step (codec : Codec γ) (c : Connection γ) (event : ConnectionEvent) :
    Handle.IsLater c.handle (c.step codec event).handle := by
  cases event with
  | send m =>
    cases hSend : c.send m with
    | error cause =>
      rw [step_send_of_error codec hSend]
      exact .refl c.handle
    | ok accepted =>
      obtain ⟨-, -, -, hSent⟩ := send_eq_ok hSend
      rw [step_send_of_ok codec hSend, hSent]
      exact .refl c.handle
  | complete k outcome =>
    rw [step, handle_complete]
    exact .refl c.handle
  | close => exact c.handle.isLater_close
  | cancelParent => exact c.handle.isLater_parentCancelled
  | dropSender => exact .refl c.handle
  | expire k => exact c.isLater_expire k []
  | turn => exact c.isLater_turn codec
  | written n =>
    change Handle.IsLater c.handle (c.written n).handle
    unfold written
    split <;> exact .refl c.handle
  | flushed => exact c.isLater_flushed
  | writeFailed cause => exact c.isLater_writeFailed cause
  | received data =>
    change Handle.IsLater c.handle (c.received data).handle
    unfold received
    split <;> exact .refl c.handle
  | readFailed cause =>
    change Handle.IsLater c.handle (c.readFailed cause).handle
    unfold readFailed
    split
    · exact c.isLater_finish _
    · exact .refl c.handle

theorem hasEnded_step (codec : Codec γ) {c : Connection γ} (h : c.hasEnded = true)
    (event : ConnectionEvent) : (c.step codec event).hasEnded = true := by
  rcases c.livesOn_or_endsWith codec event with ⟨hTermination, -⟩ | ⟨-, own, termination, -, hEnd, -⟩
  · rwa [hasEnded, hTermination]
  · rw [hasEnded, hEnd]
    rfl

theorem isActive_eq_false_iff {c : Connection γ} :
    c.isActive = false ↔ c.handle.closing = true ∨ c.hasEnded = true := by
  unfold isActive Handle.isActive
  cases c.handle.closing <;> simp

theorem isActive_close {c : Connection γ} (hSound : c.handle.closed = true → c.handle.closing = true) :
    c.close.2.isActive = false := by
  have hHandle : c.close.2.handle.isActive = false := Handle.isActive_close hSound
  rw [isActive, hHandle, Bool.false_and]

/-- A connection that is inactive never becomes active again. -/
theorem isActive_step (codec : Codec γ) {c : Connection γ} (h : c.isActive = false)
    (event : ConnectionEvent) : (c.step codec event).isActive = false := by
  rw [isActive_eq_false_iff] at h ⊢
  apply h.imp
  · intro hClosing
    exact (c.isLater_step codec event).closing hClosing
  · intro hEnded
    exact hasEnded_step codec hEnded event

theorem not_open_of_inactive {c : Connection γ} (h : c.isActive = false) :
    ¬(c.termination = none ∧ c.handle.isActive = true) := by
  rintro ⟨hOpen, hActive⟩
  simp [isActive, hActive, hasEnded, hOpen] at h

theorem joins_of_inactive {c : Connection γ} (h : c.isActive = false) (event : ConnectionEvent) :
    c.joins event = [] := by
  cases event with
  | send m =>
    cases hSend : c.send m with
    | error cause => simp [joins, hSend]
    | ok accepted =>
      obtain ⟨hOpen, hActive, -⟩ := send_eq_ok hSend
      exact absurd ⟨hOpen, hActive⟩ (not_open_of_inactive h)
  | _ => rfl

theorem contents_step_of_inactive (codec : Codec γ) {c : Connection γ} (h : c.isActive = false)
    (event : ConnectionEvent) : (c.step codec event).contents = c.contents := by
  rcases c.livesOn_or_endsWith codec event with hLives | hEnds
  · obtain ⟨-, given, -, hMessages, -⟩ := hLives
    rw [contents, hMessages, joins_of_inactive h, List.append_nil, map_content_settle, contents]
  · obtain ⟨-, own, termination, -, -, hMessages⟩ := hEnds
    rw [contents, hMessages, map_content_settle, contents]

end Connection

namespace Journal
variable {γ : Type} {c : Connection γ}

theorem record_of_inactive (codec : Codec γ) (h : c.isActive = false) (j : Journal)
    (event : ConnectionEvent) :
    (j.record codec c event).entered = j.entered ∧ (j.record codec c event).wire = j.wire := by
  have hClosed := Connection.not_open_of_inactive h
  cases event with
  | turn =>
    cases hNext : c.next with
    | take k m =>
      obtain ⟨hOpen, hActive, -⟩ := hNext ▸ c.allowed_next
      exact absurd ⟨hOpen, hActive⟩ hClosed
    | decode =>
      obtain ⟨hOpen, hActive, -⟩ := hNext ▸ c.allowed_next
      exact absurd ⟨hOpen, hActive⟩ hClosed
    | rest | shut | leave => simp [record, hNext]
  | written n =>
    have hAwaited : c.awaited ≠ .write := by
      intro hWrite
      obtain ⟨hOpen, hActive, -⟩ := hWrite ▸ c.allowed_awaited
      exact hClosed ⟨hOpen, hActive⟩
    simp [record, hAwaited]
  | send m | flushed =>
    unfold record
    dsimp only
    split <;> exact ⟨rfl, rfl⟩
  | complete | close | cancelParent | dropSender | expire | writeFailed | received | readFailed =>
    exact ⟨rfl, rfl⟩

end Journal

/-- What becomes of a connection that is inactive: no message is added, begun or written further. -/
structure Retired {γ : Type} (before after : Course γ) : Prop where
  inactive : after.connection.isActive = false
  contents : after.connection.contents = before.connection.contents
  entered : after.journal.entered = before.journal.entered
  wire : after.journal.wire = before.journal.wire

namespace Retired
variable {γ : Type} {codec : Codec γ} {before t : Course γ}

theorem refl (h : t.connection.isActive = false) : Retired t t := ⟨h, rfl, rfl, rfl⟩

theorem step (h : Retired before t) (event : ConnectionEvent) : Retired before (t.step codec event) := by
  obtain ⟨hEntered, hWire⟩ := Journal.record_of_inactive codec h.inactive t.journal event
  constructor
  · exact Connection.isActive_step codec h.inactive event
  · exact (Connection.contents_step_of_inactive codec h.inactive event).trans h.contents
  · exact hEntered.trans h.entered
  · exact hWire.trans h.wire

theorem run (h : Retired before t) (events : List ConnectionEvent) :
    Retired before (t.run codec events) := by
  induction events generalizing t with
  | nil => exact h
  | cons event events ih => exact ih (h.step event)

end Retired

namespace Connection
variable {γ : Type} {codec : Codec γ} {c : Connection γ}

theorem isActive_run (h : c.isActive = false) (events : List ConnectionEvent) :
    (c.run codec events).isActive = false := by
  have hRetired : Retired ⟨c, .empty⟩ (Course.run codec ⟨c, .empty⟩ events) :=
    (Retired.refl h).run events
  rw [← Course.connection_run codec ⟨c, .empty⟩]
  exact hRetired.inactive

theorem getElem?_run_of_completed (codec : Codec γ) {k : Nat} {m : Message}
    (hMessage : c.messages[k]? = some m) (hCompleted : m.outcome ≠ none)
    (events : List ConnectionEvent) : (c.run codec events).messages[k]? = some m := by
  induction events generalizing c with
  | nil => exact hMessage
  | cons event events ih => exact ih (getElem?_step_of_completed codec event hMessage hCompleted)

/-- Whoever has no outcome yet waits on a connection that has not ended. -/
def Attends (c : Connection γ) : Prop :=
  ∀ k m, c.messages[k]? = some m → m.outcome = none → c.termination = none ∧ c.Waits k m

theorem attends_new (id : ConnectionId) (cancelled : Bool) (state : γ) :
    (Connection.new id cancelled state).Attends := by
  intro k m hMessage
  cases hMessage

theorem Attends.step (h : c.Attends) (event : ConnectionEvent) : (c.step codec event).Attends := by
  intro k m' hMessage' hNone
  rcases c.livesOn_or_endsWith codec event with hLives | hEnds
  · obtain ⟨hTermination, given, -, hMessages, hWaits⟩ := hLives
    rcases Course.messages_of_livesOn (t := ⟨c, .empty⟩) hMessages hMessage' with
      ⟨m, hMessage, rfl⟩ | ⟨m, sent, rfl, hSend, rfl⟩
    · obtain ⟨hUntold, hGiven⟩ := Option.or_eq_none_iff.mp hNone
      obtain ⟨hOpen, hWaiting⟩ := h k m hMessage hUntold
      exact ⟨hTermination.trans hOpen, hWaits k m hMessage hWaiting hGiven⟩
    · obtain ⟨hOpen, -, rfl, rfl⟩ := send_eq_ok hSend
      refine ⟨hTermination.trans hOpen, .inl ?_⟩
      rw [step_send_of_ok codec hSend]
      exact List.mem_append_right _ List.mem_cons_self
  · obtain ⟨-, own, termination, hEnds, -, hMessages⟩ := hEnds
    rw [hMessages, getElem?_settle] at hMessage'
    obtain ⟨m, hMessage, rfl⟩ := Option.map_eq_some_iff.mp hMessage'
    obtain ⟨hUntold, hGiven⟩ := Option.or_eq_none_iff.mp hNone
    exact absurd hGiven (hEnds.given_of_waits hMessage (h k m hMessage hUntold).2)

theorem Attends.isCompleted (h : c.Attends) (hEnded : c.hasEnded = true) {k : Nat} {m : Message}
    (hMessage : c.messages[k]? = some m) : m.outcome ≠ none := by
  intro hNone
  obtain ⟨hOpen, -⟩ := h k m hMessage hNone
  simp [hasEnded, hOpen] at hEnded

end Connection
end Switchyard.Client
