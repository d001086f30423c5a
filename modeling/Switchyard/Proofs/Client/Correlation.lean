import Switchyard.Proofs.Client.Effects
import Switchyard.Proofs.Client.InStep

/-! # Replies go by position

Payloads enter the sink in the order in which they were sent, and the replies are dealt out in that
order among the messages that a reply is due to, whatever has become of these in the meantime.
-/
namespace Switchyard.Client
open Net
set_option autoImplicit false

namespace Connection
variable {γ : Type} {codec : Codec γ} {c : Connection γ} {event : ConnectionEvent}

theorem turn_of_frame {payload rest : Bytes} {state : γ} (hNext : c.next = .decode)
    (hDecoded : c.decoded codec = .ok (some (payload, rest, state))) :
    c.step codec .turn = { c with incoming := rest, codec := state }.deliver payload := by
  simp [step, turn, decode, hNext, hDecoded]

end Connection

namespace InStep
variable {γ : Type} {codec : Codec γ} {t : Course γ}

theorem expectsReply_of_due {k n : Nat} (hDue : t.expectant[n]? = some k) :
    t.connection.expectsReply k = true :=
  (List.mem_filter.mp (List.mem_of_getElem? hDue)).2

/-- The places of the messages that a reply is due to are settled once and for all. -/
theorem expectant_step (h : InStep codec t) (event : ConnectionEvent) :
    t.expectant <+: (t.step codec event).expectant := by
  obtain ⟨more, hEntered⟩ := t.journal.entered_record codec t.connection event
  obtain ⟨added, hContents⟩ := t.connection.contents_step codec event
  have hSame (k : Nat) (hk : k ∈ t.journal.entered) :
      (t.step codec event).connection.expectsReply k = t.connection.expectsReply k := by
    have hLt : k < t.connection.contents.length := by
      rw [h.contents, List.length_map]
      exact h.lt_of_mem_entered hk
    have hStep : (t.step codec event).connection = t.connection.step codec event := rfl
    rw [Connection.expectsReply_eq, Connection.expectsReply_eq, hStep, ← hContents,
      List.getElem?_append_left hLt]
  refine ⟨more.filter (t.step codec event).connection.expectsReply, ?_⟩
  calc
    t.expectant ++ more.filter (t.step codec event).connection.expectsReply
      = (t.journal.entered ++ more).filter (t.step codec event).connection.expectsReply := by
        rw [List.filter_append, List.filter_congr hSame]
        rfl
    _ = (t.step codec event).expectant := by
        rw [hEntered]
        rfl

/-- A reply to a message that is completed already is dropped. -/
theorem reply (h : InStep codec t) {payload rest : Bytes} {state : γ}
    (hNext : t.connection.next = .decode)
    (hDecoded : t.connection.decoded codec = .ok (some (payload, rest, state))) {k : Nat}
    (hDue : t.expectant[t.journal.frames.length]? = some k) :
    (t.step codec .turn).connection.termination = none ∧
      (t.step codec .turn).connection.messages = t.connection.messages.modify k (fun m =>
        (m.complete (.ok (some { payload, connection := t.connection.id }))).2) ∧
      (t.connection.isCompleted k = true →
        (t.step codec .turn).connection.messages = t.connection.messages) := by
  obtain ⟨hOpen, -, -, -⟩ := hNext ▸ t.connection.allowed_next
  obtain ⟨others, hPending⟩ := List.head?_eq_some_iff.mp ((h.due hOpen).trans hDue)
  have hStep : (t.step codec .turn).connection = _ := Connection.turn_of_frame hNext hDecoded
  rw [Connection.deliver_of_cons (c := { t.connection with incoming := rest, codec := state }) hPending]
    at hStep
  rw [hStep]
  refine ⟨hOpen, rfl, fun hCompleted => ?_⟩
  have hMessages : (t.connection.messages.modify k fun m =>
      (m.complete (.ok (some { payload, connection := t.connection.id }))).2) = t.connection.messages := by
    refine List.ext_getElem? fun i => ?_
    rw [List.getElem?_modify]
    cases hMessage : t.connection.messages[i]? with
    | none => rfl
    | some m =>
      by_cases hEq : k = i
      · subst hEq
        rw [Connection.isCompleted, hMessage, Option.any_some, Message.isCompleted] at hCompleted
        obtain ⟨outcome, hOutcome⟩ := Option.isSome_iff_exists.mp hCompleted
        simp [Message.complete, hOutcome]
      · simp [hEq]
  exact hMessages

theorem violation (h : InStep codec t) {payload rest : Bytes} {state : γ}
    (hNext : t.connection.next = .decode)
    (hDecoded : t.connection.decoded codec = .ok (some (payload, rest, state)))
    (hDue : t.expectant.length ≤ t.journal.frames.length) :
    (t.step codec .turn).connection.termination = some (.failed t.connection.unexpected) := by
  obtain ⟨hOpen, -, -, -⟩ := hNext ▸ t.connection.allowed_next
  have hPending := (h.pending hOpen).trans (List.drop_eq_nil_of_le hDue)
  have hStep : (t.step codec .turn).connection = _ := Connection.turn_of_frame hNext hDecoded
  rw [Connection.deliver_of_nil (c := { t.connection with incoming := rest, codec := state }) hPending]
    at hStep
  rw [hStep, Connection.termination_finish]
  rfl

/-- Only the message whose turn it is gets a reply, unless someone else completes another. -/
theorem response (h : InStep codec t) {event : ConnectionEvent} {k : Nat} {m m' : Message}
    {response : Response} (hMessage : t.connection.messages[k]? = some m) (hUndone : m.outcome = none)
    (hMessage' : (t.step codec event).connection.messages[k]? = some m')
    (hOutcome : m'.outcome = some (.ok (some response))) :
    event = .complete k (.ok (some response)) ∨
      t.connection.expectsReply k = true ∧ t.expectant[t.journal.frames.length]? = some k ∧
        (t.step codec event).journal.frames = t.journal.frames ++ [response.payload] := by
  have hLt := (List.getElem?_eq_some_iff.mp hMessage).1
  have hStep : (t.step codec event).connection = t.connection.step codec event := rfl
  rw [hStep] at hMessage'
  rcases t.connection.livesOn_or_endsWith codec event with hLives | hEnds
  · obtain ⟨-, given, hGives, hMessages, -⟩ := hLives
    rw [hMessages, List.getElem?_append_left (by simpa using hLt), getElem?_settle, hMessage] at hMessage'
    cases hMessage'
    have hGiven : given k = some (.ok (some response)) := by simpa [hUndone] using hOutcome
    cases hGives with
    | nothing => cases hGiven
    | timeout | sent => cases (one_eq_some.mp hGiven).2
    | stranger i outcome =>
      obtain ⟨rfl, rfl⟩ := one_eq_some.mp hGiven
      exact .inl rfl
    | reply hNext hDecoded hDue =>
      obtain ⟨rfl, hSame⟩ := one_eq_some.mp hGiven
      cases hSame
      obtain ⟨hOpen, -, -, -⟩ := hNext ▸ t.connection.allowed_next
      have hExpected : t.expectant[t.journal.frames.length]? = some k := by
        rw [← h.due hOpen, hDue, List.head?_cons]
      exact .inr ⟨expectsReply_of_due hExpected, hExpected, Course.frames_of_frame hNext hDecoded⟩
  · obtain ⟨-, own, termination, hEnds, -, hMessages⟩ := hEnds
    rw [hMessages, getElem?_settle, hMessage] at hMessage'
    cases hMessage'
    cases hEnds.dismissal (by simpa [hUndone] using hOutcome)

end InStep

/-- Payloads enter the sink in the order of sending, one behind the other, and the bytes that the
transport takes are theirs. Each reply goes to the message whose turn it is, which is the next one of
those that expect a reply and have entered the sink. If that message has its outcome already, the
reply is dropped; if there is no such message, the connection fails. -/
theorem replies_by_position {γ : Type} (codec : Codec γ) (id : ConnectionId) (cancelled : Bool) (state : γ)
    (events : List ConnectionEvent) :
    let t := (Course.start (.new id cancelled state)).run codec events
    t.connection = (Connection.new id cancelled state).run codec events ∧
    (t.journal.entered = List.range t.journal.entered.length ∧
      t.journal.sink = (t.journal.accepted.map (·.payload)).take t.journal.entered.length ∧
      (t.connection.termination = none →
        t.journal.entered ++ t.connection.queued = List.range t.journal.accepted.length) ∧
      List.Forall₂ (IsEncoding codec) t.journal.sink t.journal.encoded ∧
      t.journal.wire ++ t.connection.outgoing = t.journal.encoded.flatten ∧
      ∀ k m, t.connection.next = .take k m → t.connection.outgoing = []) ∧
    ∀ event,
      t.expectant <+: (t.step codec event).expectant ∧
      (∀ payload, (t.step codec event).journal.frames = t.journal.frames ++ [payload] →
        (∀ k, t.expectant[t.journal.frames.length]? = some k →
          t.connection.expectsReply k = true ∧
          (t.step codec event).connection.termination = none ∧
          (t.step codec event).connection.messages = t.connection.messages.modify k (fun m =>
            (m.complete (.ok (some { payload, connection := t.connection.id }))).2) ∧
          (t.connection.isCompleted k = true →
            (t.step codec event).connection.messages = t.connection.messages)) ∧
        (t.expectant.length ≤ t.journal.frames.length →
          (t.step codec event).connection.termination = some (.failed t.connection.unexpected))) ∧
      ∀ k m m' response, t.connection.messages[k]? = some m → m.outcome = none →
        (t.step codec event).connection.messages[k]? = some m' →
        m'.outcome = some (.ok (some response)) →
          event = .complete k (.ok (some response)) ∨
          t.connection.expectsReply k = true ∧
            t.expectant[t.journal.frames.length]? = some k ∧
            (t.step codec event).journal.frames = t.journal.frames ++ [response.payload] := by
  intro t
  have h : InStep codec t := (InStep.start codec id cancelled state).run events
  refine ⟨Course.connection_run codec _ events,
    ⟨h.entered, h.sink_eq, h.waiting, h.encoded, h.wire, fun k m hNext => ?_⟩,
    fun event => ⟨h.expectant_step event, fun payload hFrames => ?_, fun k m m' response => h.response⟩⟩
  · obtain ⟨hOpen, -, hIdle, -, -⟩ := hNext ▸ t.connection.allowed_next
    exact h.idle hOpen hIdle
  · rcases Course.frames_step codec t event with hSame | ⟨cut, rest, state, rfl, hNext, hDecoded⟩
    · simp [hSame] at hFrames
    · rw [Course.frames_of_frame hNext hDecoded] at hFrames
      obtain rfl : cut = payload := by simpa using hFrames
      exact ⟨fun k hDue => ⟨InStep.expectsReply_of_due hDue, h.reply hNext hDecoded hDue⟩,
        h.violation hNext hDecoded⟩

/-- Three messages are written, the second of which expects no reply. Someone else completes the first
before three replies come. -/
def surplus : List ConnectionEvent :=
  [.send (.new [97] ⟨1000⟩), .send (.new [98] ⟨0⟩), .send (.new [99] ⟨1000⟩),
    .turn, .written 2, .flushed, .turn, .written 2, .flushed, .turn, .written 2, .flushed,
    .complete 0 (.error .cancelled), .received [120, 10, 121, 10, 122, 10]]

theorem replies_by_position_surplus :
    let t := (Course.start (.new ⟨1⟩ false ())).run .lines surplus
    let u := (Course.start (.new ⟨1⟩ false ())).run .lines (surplus ++ [.turn, .turn])
    ((t.step .lines .turn).connection.termination = none ∧
      (t.step .lines .turn).connection.messages = t.connection.messages) ∧
    (u.step .lines .turn).connection.termination = some (.failed u.connection.unexpected) := by
  have hFirst := replies_by_position .lines ⟨1⟩ false () surplus
  have hThird := replies_by_position .lines ⟨1⟩ false () (surplus ++ [.turn, .turn])
  obtain ⟨-, hReply, -⟩ := hFirst.2.2 .turn
  obtain ⟨-, hViolation, -⟩ := hThird.2.2 .turn
  obtain ⟨hDropped, -⟩ := hReply [120] (by decide +kernel)
  obtain ⟨-, hOpen, -, hSame⟩ := hDropped 0 (by decide +kernel)
  obtain ⟨-, hFailed⟩ := hViolation [122] (by decide +kernel)
  exact ⟨⟨hOpen, hSame (by decide +kernel)⟩, hFailed (by decide +kernel)⟩

end Switchyard.Client
