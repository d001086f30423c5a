import Switchyard.Proofs.Client.Effects
import Switchyard.Proofs.Client.InStep

/-! # Every message has one outcome

A message that only its connection and its own timer complete is somewhere on its way until it has an
outcome, and the end of the connection leaves nobody on the way.
-/
namespace Switchyard.Client
open Net
set_option autoImplicit false

/-- What can happen as long as nobody else completes messages: a message is new when it is sent, and
only a timer that was started fires. -/
def Journal.Permits (j : Journal) : ConnectionEvent → Prop
  | .send m => m.outcome = none
  | .complete _ _ => False
  | .expire k => k ∈ j.timers
  | _ => True

namespace Course
variable {γ : Type} {codec : Codec γ} {t : Course γ} {event : ConnectionEvent}

def Permitted (codec : Codec γ) : Course γ → List ConnectionEvent → Prop
  | _, [] => True
  | t, event :: events => t.journal.Permits event ∧ (t.step codec event).Permitted codec events

/-- The messages after an event are those before it and the one that was sent. -/
theorem messages_of_livesOn {given : Nat → Option Outcome} {k : Nat} {m' : Message}
    (hMessages : (t.connection.step codec event).messages =
      settle given t.connection.messages ++ t.connection.joins event)
    (hMessage' : (t.step codec event).connection.messages[k]? = some m') :
    (∃ m, t.connection.messages[k]? = some m ∧ m' = { m with outcome := m.outcome.or (given k) }) ∨
      ∃ m sent, event = .send m ∧ t.connection.send m = .ok (k, sent) ∧
        m' = { m with connection := some t.connection.id } := by
  have hStep : (t.step codec event).connection = t.connection.step codec event := rfl
  rw [hStep, hMessages, List.getElem?_append] at hMessage'
  split at hMessage'
  case isTrue =>
    rw [getElem?_settle] at hMessage'
    obtain ⟨m, hMessage, rfl⟩ := Option.map_eq_some_iff.mp hMessage'
    exact .inl ⟨m, hMessage, rfl⟩
  case isFalse hLe =>
    rw [length_settle] at hMessage' hLe
    right
    cases event with
    | send m =>
      cases hSend : t.connection.send m with
      | error cause => simp [Connection.joins, hSend] at hMessage'
      | ok accepted =>
        obtain ⟨i, sent⟩ := accepted
        obtain ⟨-, -, hLength, -⟩ := Connection.send_eq_ok hSend
        simp only [Connection.joins, hSend, List.getElem?_singleton] at hMessage'
        split at hMessage'
        case isTrue hLast =>
          obtain rfl : k = i := by omega
          exact ⟨m, sent, rfl, hSend, (Option.some.inj hMessage').symm⟩
        case isFalse => cases hMessage'
    | _ => simp [Connection.joins] at hMessage'

end Course

namespace InStep
variable {γ : Type} {codec : Codec γ} {t : Course γ} {event : ConnectionEvent} {k : Nat}

/-- What a message gets while its connection lives on depends on whether it expects a reply. -/
theorem outcome_of_gives (h : InStep codec t) {given : Nat → Option Outcome} {outcome : Outcome}
    (hPermits : t.journal.Permits event) (hGives : t.connection.Gives codec event given)
    (hGiven : given k = some outcome) :
    (t.connection.expectsReply k = true ∧ outcome ≠ .ok none) ∨
      t.connection.expectsReply k = false ∧ outcome = .ok none ∧
        event = .flushed ∧ t.connection.awaited = .flush ∧ t.connection.writing = some k := by
  cases hGives with
  | nothing => cases hGiven
  | stranger => exact hPermits.elim
  | timeout hMessage =>
    obtain ⟨rfl, rfl⟩ := one_eq_some.mp hGiven
    exact .inl ⟨h.timers k hPermits, nofun⟩
  | reply hNext hDecoded hDue =>
    obtain ⟨rfl, rfl⟩ := one_eq_some.mp hGiven
    obtain ⟨hOpen, -, -, -⟩ := hNext ▸ t.connection.allowed_next
    exact .inl ⟨h.expectsReply_of_pending hOpen (by simp [hDue]), nofun⟩
  | sent hAwaited hWriting hReply =>
    obtain ⟨rfl, rfl⟩ := one_eq_some.mp hGiven
    exact .inr ⟨hReply, rfl, rfl, hAwaited, hWriting⟩

end InStep

/-- What is true of the message at place `k` as far as the run has come. -/
structure Fate {γ : Type} (t : Course γ) (k : Nat) (m : Message) : Prop where
  waits : t.connection.termination = none → m.outcome = none → t.connection.Waits k m
  told : t.connection.termination ≠ none → m.outcome ≠ none
  answered : m.expectsResponse = true → m.outcome ≠ some (.ok none)
  unanswered : m.expectsResponse = false → ∀ response, m.outcome ≠ some (.ok (some response))
  untimed : m.expectsResponse = false → ∀ limit, m.outcome ≠ some (.error (.responseTimeout limit))
  sent : m.expectsResponse = false → (m.outcome = some (.ok none) ↔ k ∈ t.journal.flushed)
  untouched : t.connection.termination = none → m.expectsResponse = false →
    k ∉ t.journal.flushed → m.outcome = none

namespace Fate
variable {γ : Type} {codec : Codec γ} {t : Course γ} {event : ConnectionEvent} {k : Nat} {m : Message}

/-- A message that has its outcome keeps it, whatever happens. -/
theorem of_completed (h : Fate t k m) (hInStep : InStep codec t)
    (hTermination : (t.step codec event).connection.termination = none →
      t.connection.termination = none)
    (hCompleted : m.outcome ≠ none) : Fate (t.step codec event) k m where
  waits _ hNone := absurd hNone hCompleted
  told _ := hCompleted
  answered := h.answered
  unanswered := h.unanswered
  untimed := h.untimed
  sent hSilent := by
    rw [h.sent hSilent, Course.mem_flushed_step]
    refine ⟨.inl, fun hFlushed => hFlushed.resolve_right fun ⟨_, hAwaited, hWriting⟩ => ?_⟩
    obtain ⟨hOpen, -⟩ := hAwaited ▸ t.connection.allowed_awaited
    exact hCompleted (h.untouched hOpen hSilent (hInStep.not_flushed_of_writing hOpen hWriting))
  untouched hOpen hSilent hUnsent :=
    h.untouched (hTermination hOpen) hSilent fun hFlushed =>
      hUnsent (Course.mem_flushed_step.mpr (.inl hFlushed))

theorem not_flushed (h : Fate t k m) (hNone : m.outcome = none) (hSilent : m.expectsResponse = false) :
    k ∉ t.journal.flushed := by
  rw [← h.sent hSilent, hNone]
  nofun

/-- A message that gets an outcome while its connection lives on. -/
theorem of_gives (hInStep : InStep codec t) (hPermits : t.journal.Permits event)
    (hMessage : t.connection.messages[k]? = some m) {given : Nat → Option Outcome}
    (hGives : t.connection.Gives codec event given) {outcome : Outcome}
    (hGiven : given k = some outcome) :
    Fate (t.step codec event) k { m with outcome := some outcome } := by
  have hExpects := Connection.expectsReply_of_message hMessage
  rcases hInStep.outcome_of_gives hPermits hGives hGiven with ⟨hReply, hNever⟩ | ⟨hReply, rfl, hSent⟩
  · have hLoud : m.expectsResponse = true := hExpects.symm.trans hReply
    have hNot {p : Prop} (hSilent : m.expectsResponse = false) : p := by cases hLoud.symm.trans hSilent
    exact {
      waits := nofun
      told := nofun
      answered := fun _ hEq => hNever (Option.some.inj hEq)
      unanswered := fun hSilent => hNot hSilent
      untimed := fun hSilent => hNot hSilent
      sent := fun hSilent => hNot hSilent
      untouched := fun _ hSilent => hNot hSilent }
  · have hSilent : m.expectsResponse = false := hExpects.symm.trans hReply
    have hFlushed : k ∈ (t.step codec event).journal.flushed := Course.mem_flushed_step.mpr (.inr hSent)
    exact {
      waits := nofun
      told := nofun
      answered := fun hLoud => by cases hSilent.symm.trans hLoud
      unanswered := nofun
      untimed := nofun
      sent := fun _ => ⟨fun _ => hFlushed, fun _ => rfl⟩
      untouched := fun _ _ hUnsent => absurd hFlushed hUnsent }

theorem of_nothing (h : Fate t k m) (hMessage : t.connection.messages[k]? = some m)
    (hNone : m.outcome = none)
    (hTermination : (t.step codec event).connection.termination = t.connection.termination)
    {given : Nat → Option Outcome} (hGives : t.connection.Gives codec event given)
    (hNothing : given k = none)
    (hWaits : t.connection.Waits k m → (t.step codec event).connection.Waits k m) :
    Fate (t.step codec event) k m where
  waits hOpen _ := hWaits (h.waits (hTermination ▸ hOpen) hNone)
  told hEnded := absurd hNone (h.told (hTermination ▸ hEnded))
  answered _ := by simp [hNone]
  unanswered _ _ := by simp [hNone]
  untimed _ _ := by simp [hNone]
  sent hSilent := by
    rw [h.sent hSilent, Course.mem_flushed_step]
    refine ⟨.inl, fun hFlushed => hFlushed.resolve_right ?_⟩
    rintro ⟨rfl, hAwaited, hWriting⟩
    have hReply := Connection.expectsReply_of_message hMessage
    cases hGives with
    | nothing hUnsent => simp [hSilent, hUnsent rfl hAwaited k hWriting] at hReply
    | sent hFlush hWritten =>
      cases hWritten.symm.trans hWriting
      simp [one] at hNothing
  untouched _ _ _ := hNone

/-- A message that the end of its connection completes. -/
theorem of_ends (h : Fate t k m) (hNone : m.outcome = none) {own : Nat → Option Outcome}
    {termination : Termination} (hEnds : t.connection.Ends codec event own termination)
    (hTermination : (t.step codec event).connection.termination = some termination)
    {outcome : Outcome} (hGiven : (own k).or (t.connection.parting termination k) = some outcome) :
    Fate (t.step codec event) k { m with outcome := some outcome } := by
  have hDismissal := hEnds.dismissal hGiven
  have hSame : k ∈ (t.step codec event).journal.flushed ↔ k ∈ t.journal.flushed := by
    rw [Course.mem_flushed_step]
    refine ⟨fun hFlushed => hFlushed.resolve_right ?_, .inl⟩
    rintro ⟨rfl, -⟩
    cases hEnds
  exact {
    waits := nofun
    told := nofun
    answered := fun _ hEq => by cases Option.some.inj hEq ▸ hDismissal
    unanswered := fun _ _ hEq => by cases Option.some.inj hEq ▸ hDismissal
    untimed := fun _ _ hEq => by cases Option.some.inj hEq ▸ hDismissal
    sent := fun hSilent => by
      refine ⟨fun hEq => ?_, fun hFlushed => absurd (hSame.mp hFlushed) (h.not_flushed hNone hSilent)⟩
      cases Option.some.inj hEq ▸ hDismissal
    untouched := fun hOpen => by simp [hTermination] at hOpen }

/-- A message that has just been sent. -/
theorem of_send (hInStep : InStep codec t) {sent : Connection γ}
    (hSend : t.connection.send m = .ok (k, sent)) (hNew : m.outcome = none) :
    Fate (t.step codec (.send m)) k { m with connection := some t.connection.id } := by
  rw [Course.step_send_of_ok codec hSend]
  obtain ⟨hOpen, -, rfl, rfl⟩ := Connection.send_eq_ok hSend
  have hUnsent : t.connection.messages.length ∉ t.journal.flushed := fun hFlushed => by
    have hLt := hInStep.lt_of_mem_entered (hInStep.entered_of_flushed hOpen hFlushed)
    rw [hInStep.length_messages] at hLt
    omega
  exact {
    waits := fun _ _ => .inl (List.mem_append_right _ List.mem_cons_self)
    told := fun hEnded => absurd hOpen hEnded
    answered := fun _ => by simp [hNew]
    unanswered := fun _ _ => by simp [hNew]
    untimed := fun _ _ => by simp [hNew]
    sent := fun _ => by simp [hNew, hUnsent]
    untouched := fun _ _ _ => hNew }

/-- What is true of every message stays true. -/
theorem step (hFate : ∀ k m, t.connection.messages[k]? = some m → Fate t k m)
    (hInStep : InStep codec t) (hPermits : t.journal.Permits event) {m' : Message}
    (hMessage' : (t.step codec event).connection.messages[k]? = some m') :
    Fate (t.step codec event) k m' := by
  rcases t.connection.livesOn_or_endsWith codec event with hLives | hEnds
  · obtain ⟨hTermination, given, hGives, hMessages, hWaits⟩ := hLives
    have hOpen : (t.step codec event).connection.termination = t.connection.termination := hTermination
    rcases Course.messages_of_livesOn hMessages hMessage' with
      ⟨m, hMessage, rfl⟩ | ⟨m, sent, rfl, hSend, rfl⟩
    · have h := hFate k m hMessage
      obtain ⟨payload, timeout, connection, outcome⟩ := m
      cases outcome with
      | some outcome => exact h.of_completed hInStep (hOpen ▸ ·) nofun
      | none =>
        cases hGiven : given k with
        | some outcome => exact of_gives hInStep hPermits hMessage hGives hGiven
        | none =>
          exact h.of_nothing hMessage rfl hOpen hGives hGiven fun hWaiting =>
            hWaits k _ hMessage hWaiting hGiven
    · exact of_send hInStep hSend hPermits
  · obtain ⟨hOpen, own, termination, hEnds, hTermination, hMessages⟩ := hEnds
    have hStep : (t.step codec event).connection = t.connection.step codec event := rfl
    rw [hStep, hMessages, getElem?_settle] at hMessage'
    obtain ⟨m, hMessage, rfl⟩ := Option.map_eq_some_iff.mp hMessage'
    have h := hFate k m hMessage
    obtain ⟨payload, timeout, connection, outcome⟩ := m
    cases outcome with
    | some outcome => exact h.of_completed hInStep (fun _ => hOpen) nofun
    | none =>
      have hTold := hEnds.given_of_waits hMessage (h.waits hOpen rfl)
      obtain ⟨outcome, hGiven⟩ := Option.ne_none_iff_exists'.mp hTold
      simp only [hGiven, Option.none_or]
      exact h.of_ends rfl hEnds hTermination hGiven

theorem run (hFate : ∀ k m, t.connection.messages[k]? = some m → Fate t k m) (hInStep : InStep codec t)
    {events : List ConnectionEvent} (hPermitted : t.Permitted codec events) :
    ∀ k m, (t.run codec events).connection.messages[k]? = some m → Fate (t.run codec events) k m := by
  induction events generalizing t with
  | nil => exact hFate
  | cons event events ih =>
    obtain ⟨hPermits, hLater⟩ := hPermitted
    exact ih (fun k m' => step hFate hInStep hPermits) (hInStep.step event) hLater

end Fate

/-- What a message that still has no outcome gets from the end of its connection. It depends on how
far the message has come, and for one that has been written on the reason of the end. -/
structure LastOutcome {γ : Type} (codec : Codec γ) (t : Course γ) (event : ConnectionEvent)
    (termination : Termination) (k : Nat) (m : Message) (outcome : Outcome) : Prop where
  refused : ∀ cause, t.connection.next = .take k m →
    codec.encode t.connection.codec m.payload = .error cause →
      outcome = .error (.connectionFailed t.connection.id cause)
  unwritten : ∀ cause, event = .writeFailed cause → k ∈ t.journal.entered → k ∉ t.journal.flushed →
    outcome = .error (.connectionFailed t.connection.id
      (if m.expectsResponse then (Error.io cause).message else cause))
  interrupted : k ∈ t.journal.entered → k ∉ t.journal.flushed → (∀ cause, event ≠ .writeFailed cause) →
    termination = .closed ∧ outcome = .error (.connectionClosed t.connection.id)
  failed : k ∈ t.journal.flushed → ∀ cause, termination = .failed cause →
    outcome = .error (.connectionFailed t.connection.id cause.message)
  cancelled : k ∈ t.journal.flushed → termination = .closed ∨ termination = .disconnected →
    outcome = .error .cancelled
  unbegun : k ∉ t.journal.entered → (∀ cause, t.connection.next = .take k m →
      codec.encode t.connection.codec m.payload ≠ .error cause) →
    outcome = .error (.connectionClosed t.connection.id)

section LastOutcome
variable {γ : Type} {codec : Codec γ} {t : Course γ} {event : ConnectionEvent} {k : Nat} {m : Message}
  {own : Nat → Option Outcome} {termination : Termination} {outcome : Outcome}

/-- A message that has been written waits for its reply until the end. -/
theorem Fate.outcome_of_flushed (h : Fate t k m) (hInStep : InStep codec t) (hNone : m.outcome = none)
    (hOpen : t.connection.termination = none)
    (hEnds : t.connection.Ends codec event own termination)
    (hGiven : (own k).or (t.connection.parting termination k) = some outcome)
    (hFlushed : k ∈ t.journal.flushed) : outcome = t.connection.pendingOutcome termination := by
  have hEntered := hInStep.entered_of_flushed hOpen hFlushed
  have hBegun : k ∉ t.connection.queued := fun hQueued =>
    (hInStep.queued_iff hOpen (hInStep.lt_of_mem_entered hEntered)).mp hQueued hEntered
  have hWriting : t.connection.writing ≠ some k := fun hWriting =>
    hInStep.not_flushed_of_writing hOpen hWriting hFlushed
  have hPending : k ∈ t.connection.pending := by
    rcases h.waits hOpen hNone with hQueued | ⟨hWritten, -⟩ | hPending
    · exact absurd hQueued hBegun
    · exact absurd hWritten hWriting
    · exact hPending
  rcases hEnds.own_of_not_writing hWriting with hOwn | ⟨m', cause, hNext, -, -⟩
  · rw [hOwn, Option.none_or, Connection.parting_of_pending hBegun hPending] at hGiven
    exact (Option.some.inj hGiven).symm
  · obtain ⟨-, -, -, -, hQueued⟩ := hNext ▸ t.connection.allowed_next
    exact absurd (hQueued ▸ List.mem_cons_self) hBegun

theorem Fate.lastOutcome (h : Fate t k m) (hInStep : InStep codec t)
    (hMessage : t.connection.messages[k]? = some m) (hNone : m.outcome = none)
    (hOpen : t.connection.termination = none)
    (hEnds : t.connection.Ends codec event own termination)
    (hGiven : (own k).or (t.connection.parting termination k) = some outcome) :
    LastOutcome codec t event termination k m outcome := by
  have hLt : k < t.journal.accepted.length :=
    hInStep.length_messages ▸ (List.getElem?_eq_some_iff.mp hMessage).1
  have hOwn {given : Outcome} (hOwn : own k = some given) : outcome = given := by
    rw [hOwn, Option.some_or] at hGiven
    exact (Option.some.inj hGiven).symm
  refine ⟨fun cause hNext hEncode => ?_, fun cause hEvent hEntered hUnsent => ?_,
    fun hEntered hUnsent hNever => ?_, fun hFlushed cause hFailed => ?_, fun hFlushed hClean => ?_,
    fun hUnbegun hTaken => ?_⟩
  · exact hOwn (hEnds.own_of_refused hNext hEncode)
  · have hWriting := (hInStep.writing_iff hOpen).mpr ⟨hEntered, hUnsent⟩
    rcases hEnds.own_of_writing hWriting with ⟨hTurn, -, -⟩ | ⟨cause', hSame, rfl, hFailed⟩
    · cases hTurn.symm.trans hEvent
    · cases hSame.symm.trans hEvent
      rw [Connection.expectsReply_of_message hMessage] at hFailed
      cases hReply : m.expectsResponse with
      | false => exact hOwn (by simpa [hReply] using hFailed)
      | true =>
        have hBegun : k ∉ t.connection.queued := fun hQueued =>
          (hInStep.queued_iff hOpen hLt).mp hQueued hEntered
        have hPending : k ∈ t.connection.pending := by
          rcases h.waits hOpen hNone with hQueued | ⟨-, hSilent⟩ | hPending
          · exact absurd hQueued hBegun
          · simp [hReply] at hSilent
          · exact hPending
        rw [hFailed, hReply, if_pos rfl, Option.none_or,
          Connection.parting_of_pending hBegun hPending] at hGiven
        exact (Option.some.inj hGiven).symm
  · have hWriting := (hInStep.writing_iff hOpen).mpr ⟨hEntered, hUnsent⟩
    rcases hEnds.own_of_writing hWriting with ⟨-, hClosed, hGone⟩ | ⟨cause, hFailed, -, -⟩
    · exact ⟨hClosed, hOwn hGone⟩
    · exact absurd hFailed (hNever cause)
  · rw [h.outcome_of_flushed hInStep hNone hOpen hEnds hGiven hFlushed, hFailed]
    rfl
  · rw [h.outcome_of_flushed hInStep hNone hOpen hEnds hGiven hFlushed]
    rcases hClean with rfl | rfl <;> rfl
  · have hWriting : t.connection.writing ≠ some k := fun hWriting =>
      hUnbegun ((hInStep.writing_iff hOpen).mp hWriting).1
    have hQueued := (hInStep.queued_iff hOpen hLt).mpr hUnbegun
    rcases hEnds.own_of_not_writing hWriting with hNothing | ⟨m', cause, hNext, hEncode, -⟩
    · rw [hNothing, Option.none_or, Connection.parting_of_queued hQueued] at hGiven
      exact (Option.some.inj hGiven).symm
    · obtain ⟨-, -, -, hSame, -⟩ := hNext ▸ t.connection.allowed_next
      obtain rfl : m = m' := Option.some.inj (hMessage.symm.trans hSame)
      exact absurd hEncode (hTaken cause hNext)

end LastOutcome

/-- Nobody waits for ever, and nobody gets an outcome twice or one that is not for them. The message at
a place is the one that was accepted there; it has an outcome once the connection has ended, and an
outcome is final whatever happens. -/
theorem every_message_has_one_outcome {γ : Type} (codec : Codec γ) (id : ConnectionId)
    (cancelled : Bool) (state : γ) (events : List ConnectionEvent)
    (hPermitted : (Course.start (.new id cancelled state)).Permitted codec events) :
    let t := (Course.start (.new id cancelled state)).run codec events
    t.connection = (Connection.new id cancelled state).run codec events ∧
    t.connection.contents = t.journal.accepted.map Message.content ∧
    (t.connection.termination ≠ none →
      ∀ k, k < t.journal.accepted.length → t.connection.isCompleted k = true) ∧
    (∀ k m, t.connection.messages[k]? = some m →
      (m.expectsResponse = true → m.outcome ≠ some (.ok none)) ∧
      (m.expectsResponse = false →
        (∀ response, m.outcome ≠ some (.ok (some response))) ∧
        (∀ limit, m.outcome ≠ some (.error (.responseTimeout limit))) ∧
        (m.outcome = some (.ok none) ↔ k ∈ t.journal.flushed))) ∧
    ∀ event : ConnectionEvent,
      (∀ (k : Nat) (m : Message), t.connection.messages[k]? = some m → m.outcome ≠ none →
        (t.step codec event).connection.messages[k]? = some m) ∧
      ∀ termination, t.connection.termination = none →
        (t.step codec event).connection.termination = some termination →
        ∀ (k : Nat) (m : Message), t.connection.messages[k]? = some m → m.outcome = none →
          ∃ outcome, LastOutcome codec t event termination k m outcome ∧
            (t.step codec event).connection.messages[k]? = some { m with outcome := some outcome } := by
  intro t
  have hInStep : InStep codec t := (InStep.start codec id cancelled state).run events
  have hFate : ∀ k m, t.connection.messages[k]? = some m → Fate t k m := by
    refine Fate.run (fun k m hMessage => ?_) (InStep.start codec id cancelled state) hPermitted
    cases hMessage
  refine ⟨Course.connection_run codec _ events, hInStep.contents, fun hEnded k hLt => ?_,
    fun k m hMessage => ?_, fun event => ⟨?_, ?_⟩⟩
  · rw [← hInStep.length_messages] at hLt
    have hMessage := List.getElem?_eq_getElem hLt
    have hTold := (hFate k _ hMessage).told hEnded
    rw [Connection.isCompleted, hMessage, Option.any_some, Message.isCompleted]
    exact Option.isSome_iff_ne_none.mpr hTold
  · have h := hFate k m hMessage
    exact ⟨h.answered, fun hSilent => ⟨h.unanswered hSilent, h.untimed hSilent, h.sent hSilent⟩⟩
  · intro k m hMessage hCompleted
    exact Connection.getElem?_step_of_completed codec event hMessage hCompleted
  · intro termination hOpen hEnded k m hMessage hNone
    rcases t.connection.livesOn_or_endsWith codec event with ⟨hLives, -⟩ | hEnds
    · cases (hLives.trans hOpen).symm.trans hEnded
    · obtain ⟨-, own, cause, hEnds, hCause, hMessages⟩ := hEnds
      cases hCause.symm.trans hEnded
      have h := hFate k m hMessage
      have hTold := hEnds.given_of_waits hMessage (h.waits hOpen hNone)
      obtain ⟨outcome, hGiven⟩ := Option.ne_none_iff_exists'.mp hTold
      refine ⟨outcome, h.lastOutcome hInStep hMessage hNone hOpen hEnds hGiven, ?_⟩
      have hStep : (t.step codec event).connection = t.connection.step codec event := rfl
      rw [hStep, hMessages, getElem?_settle, hMessage, Option.map_some, hNone, Option.none_or, hGiven]

/-- The second of two messages that have been written runs out of time while the third is half
written, and before the fourth is begun. -/
def overdue : List ConnectionEvent :=
  [.send (.new [97] ⟨1000⟩), .send (.new [98] ⟨500⟩), .send (.new [99] ⟨0⟩), .send (.new [100] ⟨0⟩),
    .turn, .written 2, .flushed, .turn, .written 2, .flushed, .turn, .written 1, .expire 1]

theorem every_message_has_one_outcome_overdue :
    let t := (Course.start (.new ⟨1⟩ false ())).run .lines overdue
    let outcome (k : Nat) := ((t.step .lines .turn).connection.messages[k]?).map (·.outcome)
    outcome 0 = some (some (.error .cancelled)) ∧
      outcome 2 = some (some (.error (.connectionClosed t.connection.id))) ∧
      outcome 3 = some (some (.error (.connectionClosed t.connection.id))) := by
  intro t outcome
  have hPermitted : (Course.start (.new ⟨1⟩ false ())).Permitted .lines overdue := by
    refine ⟨rfl, rfl, rfl, rfl, trivial, trivial, trivial, trivial, trivial, trivial, trivial, trivial, ?_,
      trivial⟩
    change 1 ∈ _
    decide +kernel
  obtain ⟨-, -, -, -, hLater⟩ := every_message_has_one_outcome .lines ⟨1⟩ false () overdue hPermitted
  obtain ⟨-, hEnd⟩ := hLater .turn
  have hTold (k : Nat) (hNone : (t.connection.messages[k]?).map (·.outcome) = some none) :
      ∃ m given, LastOutcome .lines t .turn .closed k m given ∧ outcome k = some (some given) := by
    obtain ⟨m, hMessage, hWaits⟩ := Option.map_eq_some_iff.mp hNone
    obtain ⟨given, hGiven, hMessage'⟩ :=
      hEnd .closed (by decide +kernel) (by decide +kernel) k m hMessage hWaits
    exact ⟨m, given, hGiven, by simp only [outcome, t, hMessage', Option.map_some]⟩
  refine ⟨?_, ?_, ?_⟩
  · obtain ⟨m, given, hGiven, hOutcome⟩ := hTold 0 (by decide +kernel)
    rw [hOutcome, hGiven.cancelled (by decide +kernel) (.inl rfl)]
  · obtain ⟨m, given, hGiven, hOutcome⟩ := hTold 2 (by decide +kernel)
    rw [hOutcome, (hGiven.interrupted (by decide +kernel) (by decide +kernel) nofun).2]
  · obtain ⟨m, given, hGiven, hOutcome⟩ := hTold 3 (by decide +kernel)
    have hClosing : t.connection.next.Allowed t.connection := t.connection.allowed_next
    rw [hOutcome, hGiven.unbegun (by decide +kernel) fun cause hNext => ?_]
    obtain ⟨-, hActive, -⟩ := hNext ▸ hClosing
    exact absurd hActive (by decide +kernel)

end Switchyard.Client
