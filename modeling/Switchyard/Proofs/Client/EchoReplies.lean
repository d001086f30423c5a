import Switchyard.Proofs.Client.Completion
import Switchyard.Proofs.Client.Correlation
import Switchyard.Proofs.Client.Flow
import Switchyard.Proofs.Echo.Framing

/-! # A client and an echo

A client with the echo framing talks to a peer that sends back the bytes it gets, in whatever pieces
and as late as it likes. The lengths that the codec expects and the messages that a reply is due to
stay in step, so that each message that gets a reply gets its own payload.
-/
namespace Switchyard.Client
open Net
set_option autoImplicit false

/-- What the transport says of itself when it fails. -/
def ConnectionEvent.failure? : ConnectionEvent → Option String
  | .writeFailed cause | .readFailed cause => some cause
  | _ => none

structure Dialogue where
  course : Course Echo.Codec
  /-- What the peer has sent back and the client has read. -/
  returned : Bytes

namespace Dialogue

def start (id : ConnectionId) (cancelled : Bool) : Dialogue :=
  { course := .start (.new id cancelled .empty), returned := [] }

def step (d : Dialogue) (event : ConnectionEvent) : Dialogue :=
  { course := d.course.step .echo event
    returned :=
      match event with
      | .received data =>
        if d.course.connection.awaited = .read then d.returned ++ data else d.returned
      | _ => d.returned }

def run (d : Dialogue) (events : List ConnectionEvent) : Dialogue := events.foldl step d

/-- Every message expects a reply, nobody but the connection gives it one, and what is read are bytes
that the transport has taken before. -/
def Permits (d : Dialogue) : ConnectionEvent → Prop
  | .send m => m.expectsResponse = true ∧ ∀ response, m.outcome ≠ some (.ok (some response))
  | .complete _ outcome => ∀ response, outcome ≠ .ok (some response)
  | .received data =>
    d.course.connection.awaited = .read → d.returned ++ data <+: d.course.journal.wire
  | _ => True

def Permitted : Dialogue → List ConnectionEvent → Prop
  | _, [] => True
  | d, event :: events => d.Permits event ∧ (d.step event).Permitted events

theorem run_course (d : Dialogue) (events : List ConnectionEvent) :
    (d.run events).course = d.course.run .echo events := by
  induction events generalizing d with
  | nil => rfl
  | cons event events ih => exact ih (d.step event)

end Dialogue

theorem getElem?_of_prefix {α : Type} {earlier later : List α} (h : earlier <+: later) {k : Nat} {a : α}
    (hFound : earlier[k]? = some a) : later[k]? = some a := by
  obtain ⟨hLt, rfl⟩ := List.getElem?_eq_some_iff.mp hFound
  exact List.prefix_iff_getElem?.mp h k hLt

/-- An event adds a message, or changes at most the outcome of one. -/
theorem Course.message_step {γ : Type} {codec : Codec γ} {t : Course γ} {event : ConnectionEvent}
    {k : Nat} {m' : Message} (hMessage' : (t.step codec event).connection.messages[k]? = some m') :
    (∃ m outcome, t.connection.messages[k]? = some m ∧ m' = { m with outcome }) ∨
      ∃ m sent, event = .send m ∧ t.connection.send m = .ok (k, sent) ∧
        m' = { m with connection := some t.connection.id } := by
  rcases t.connection.livesOn_or_endsWith codec event with hLives | hEnds
  · obtain ⟨-, given, -, hMessages, -⟩ := hLives
    refine (messages_of_livesOn hMessages hMessage').imp_left ?_
    rintro ⟨m, hMessage, rfl⟩
    exact ⟨m, _, hMessage, rfl⟩
  · obtain ⟨-, own, termination, -, -, hMessages⟩ := hEnds
    have hStep : (t.step codec event).connection = t.connection.step codec event := rfl
    rw [hStep, hMessages, getElem?_settle] at hMessage'
    obtain ⟨m, hMessage, rfl⟩ := Option.map_eq_some_iff.mp hMessage'
    exact .inl ⟨m, _, hMessage, rfl⟩

theorem echo_encode_eq_ok {before after : Echo.Codec} {payload bytes : Bytes}
    (h : Codec.echo.encode before payload = .ok (bytes, after)) :
    bytes = payload ∧ after = ⟨before.expected ++ [payload.length]⟩ := by
  cases hEncode : before.encode payload with
  | error cause => simp [Codec.echo, hEncode, Except.mapError] at h
  | ok encoded =>
    obtain rfl : encoded = (bytes, after) := by simpa [Codec.echo, hEncode, Except.mapError] using h
    exact Echo.Codec.encode_eq_ok hEncode

theorem echo_encode_eq_error {state : Echo.Codec} {payload : Bytes} {cause : String}
    (h : Codec.echo.encode state payload = .error cause) :
    cause = Echo.CodecError.emptyPayload.message := by
  cases hEncode : state.encode payload with
  | error refusal =>
    rw [← Echo.Codec.encode_eq_error hEncode]
    simpa [Codec.echo, hEncode, Except.mapError] using h.symm
  | ok encoded => simp [Codec.echo, hEncode, Except.mapError] at h

theorem eq_of_isEncoding_echo {payload bytes : Bytes} (h : IsEncoding .echo payload bytes) :
    bytes = payload := by
  obtain ⟨before, after, hEncode⟩ := h
  exact (echo_encode_eq_ok hEncode).1

/-- These payloads have been written and their echo has not been cut yet, and these bytes have come. -/
structure Flow.Owes (flow : Flow Echo.Codec) (returned : Bytes) (due : List Bytes) : Prop where
  encoded : flow.encoded = flow.frames ++ due
  codec : flow.codec = .awaiting due
  arrived : flow.frames.flatten ++ flow.incoming = returned

/-- What is true of a dialogue as far as it has come. -/
structure InEcho (d : Dialogue) (due : List Bytes) : Prop where
  inStep : InStep .echo d.course
  owes : d.course.flow.Owes d.returned due
  returned : d.returned <+: d.course.journal.wire
  expecting : ∀ (k : Nat) (m : Message), d.course.connection.messages[k]? = some m →
    m.expectsResponse = true
  answered : ∀ (k : Nat) (m : Message) (response : Response),
    d.course.connection.messages[k]? = some m → m.outcome = some (.ok (some response)) →
      d.course.journal.frames[k]? = some response.payload

namespace InEcho
variable {d : Dialogue} {due : List Bytes} {event : ConnectionEvent}

theorem start (id : ConnectionId) (cancelled : Bool) : InEcho (.start id cancelled) [] where
  inStep := .start .echo id cancelled .empty
  owes := ⟨rfl, rfl, rfl⟩
  returned := List.prefix_rfl
  expecting := nofun
  answered := nofun

theorem encoded_eq_append (h : InEcho d due) :
    d.course.journal.encoded = d.course.journal.frames ++ due :=
  h.owes.encoded

theorem incoming_prefix (h : InEcho d due) : d.course.connection.incoming <+: due.flatten := by
  have hWritten : d.course.journal.wire <+: d.course.journal.encoded.flatten :=
    h.inStep.wire ▸ List.prefix_append _ _
  have hArrived := h.returned.trans hWritten
  rw [← h.owes.arrived, h.encoded_eq_append, List.flatten_append] at hArrived
  exact (List.prefix_append_right_inj _).mp hArrived

/-- What is looked for in the bytes read is found there, or cut short. -/
theorem decoded_finds (h : InEcho d due) :
    ∃ found, Echo.Codec.Finds due d.course.connection.incoming found ∧
      d.course.connection.decoded .echo = found.mapError (·.message) := by
  have hCodec : d.course.connection.codec = .awaiting due := h.owes.codec
  unfold Connection.decoded
  rw [hCodec]
  split
  · exact ⟨_, Echo.Codec.decodeEnd_finds h.incoming_prefix, rfl⟩
  · exact ⟨_, Echo.Codec.decode_finds h.incoming_prefix, rfl⟩

theorem encoded_eq (h : InEcho d due) :
    d.course.journal.encoded =
      (d.course.journal.accepted.map (·.payload)).take d.course.journal.entered.length := by
  have hSame : List.Forall₂ Eq d.course.journal.sink d.course.journal.encoded :=
    h.inStep.encoded.imp fun _ _ hEncoding => (eq_of_isEncoding_echo hEncoding).symm
  rw [List.forall₂_eq_eq_eq] at hSame
  rw [← hSame, h.inStep.sink_eq]

/-- A reply is due to all that have entered the sink. -/
theorem expectant_eq (h : InEcho d due) : d.course.expectant = d.course.journal.entered := by
  refine List.filter_eq_self.mpr fun k hk => ?_
  have hLt := h.inStep.lt_of_mem_entered hk
  rw [← h.inStep.length_messages] at hLt
  have hMessage := List.getElem?_eq_getElem hLt
  rw [Connection.expectsReply_of_message hMessage]
  exact h.expecting k _ hMessage

/-- As many lengths are expected as replies are due. -/
theorem length_pending (h : InEcho d due) (hOpen : d.course.connection.termination = none) :
    d.course.connection.pending.length = due.length := by
  have hBegun := h.inStep.begun
  have hLength := congrArg List.length h.encoded_eq
  rw [h.encoded_eq_append, List.length_append, List.length_take, List.length_map,
    Nat.min_eq_left hBegun] at hLength
  rw [h.inStep.pending hOpen, h.expectant_eq, List.length_drop, ← hLength, Nat.add_sub_cancel_left]

/-- A reply that is cut is the payload whose turn it is. -/
theorem decoded_eq_some (h : InEcho d due) {payload rest : Bytes} {state : Echo.Codec}
    (hDecoded : d.course.connection.decoded .echo = .ok (some (payload, rest, state))) :
    ∃ later, due = payload :: later ∧ d.course.connection.incoming = payload ++ rest ∧
      state = .awaiting later := by
  obtain ⟨found, hFinds, hFound⟩ := h.decoded_finds
  rw [hFound] at hDecoded
  cases hFinds with
  | nothing => cases hDecoded
  | reply hNext hBuffer =>
    cases hDecoded
    exact ⟨_, hNext, hBuffer, rfl⟩
  | cutShort count => cases hDecoded

theorem owes_step (h : InEcho d due) (event : ConnectionEvent) :
    ∃ due, (d.step event).course.flow.Owes (d.step event).returned due ∧
      d.course.journal.frames <+: (d.step event).course.journal.frames := by
  have hFlows : Flows .echo d.course event (d.step event).course.flow := d.course.flows_step event
  have hFrames : (d.step event).course.journal.frames = (d.step event).course.flow.frames := rfl
  rw [hFrames]
  generalize (d.step event).course.flow = flow at hFlows
  obtain ⟨hEncoded, hCodec, hArrived⟩ := h.owes
  -- What is encoded is owed from then on, and what is cut is what was owed first.
  cases hFlows with
  | still hUnread =>
    have hReturned : (d.step event).returned = d.returned := by
      cases event with
      | received data => exact if_neg (hUnread data rfl)
      | _ => rfl
    exact ⟨due, ⟨hEncoded, hCodec, hReturned ▸ hArrived⟩, List.prefix_rfl⟩
  | @entered k m bytes state hNext hEncode =>
    obtain ⟨rfl, rfl⟩ := echo_encode_eq_ok hEncode
    have hExpected : d.course.connection.codec.expected = due.map List.length :=
      congrArg Echo.Codec.expected hCodec
    refine ⟨due ++ [m.payload], ⟨?_, ?_, hArrived⟩, List.prefix_rfl⟩
    · simp [h.encoded_eq_append, Course.flow]
    · simp [hExpected, Echo.Codec.awaiting]
  | @cut payload rest state hNext hDecoded =>
    obtain ⟨later, rfl, hIncoming, rfl⟩ := h.decoded_eq_some hDecoded
    refine ⟨later, ⟨?_, rfl, ?_⟩, List.prefix_append _ _⟩
    · simp [h.encoded_eq_append, Course.flow]
    · have hBehind : d.course.journal.frames.flatten ++ (payload ++ rest) = d.returned :=
        hIncoming ▸ hArrived
      simpa [Dialogue.step] using hBehind
  | @received data hAwaited =>
    refine ⟨due, ⟨hEncoded, hCodec, ?_⟩, List.prefix_rfl⟩
    have hReturned : (d.step (.received data)).returned = d.returned ++ data := if_pos hAwaited
    rw [hReturned, ← hArrived]
    exact (List.append_assoc _ _ _).symm

theorem returned_step (h : InEcho d due) (hPermits : d.Permits event) :
    (d.step event).returned <+: (d.step event).course.journal.wire := by
  have hWire : d.course.journal.wire <+: (d.step event).course.journal.wire :=
    d.course.journal.wire_record .echo d.course.connection event
  refine List.IsPrefix.trans ?_ hWire
  cases event with
  | received data =>
    by_cases hAwaited : d.course.connection.awaited = .read
    · simpa [Dialogue.step, hAwaited] using hPermits hAwaited
    · simpa [Dialogue.step, hAwaited] using h.returned
  | _ => exact h.returned

theorem expecting_step (h : InEcho d due) (hPermits : d.Permits event) {k : Nat} {m' : Message}
    (hMessage' : (d.step event).course.connection.messages[k]? = some m') :
    m'.expectsResponse = true := by
  rcases Course.message_step hMessage' with ⟨m, outcome, hMessage, rfl⟩ | ⟨m, sent, rfl, -, rfl⟩
  · exact h.expecting k m hMessage
  · exact hPermits.1

/-- A message gets the reply at its own place. -/
theorem answered_step (h : InEcho d due) (hPermits : d.Permits event)
    (hFrames : d.course.journal.frames <+: (d.step event).course.journal.frames) {k : Nat}
    {m' : Message} {response : Response}
    (hMessage' : (d.step event).course.connection.messages[k]? = some m')
    (hOutcome : m'.outcome = some (.ok (some response))) :
    (d.step event).course.journal.frames[k]? = some response.payload := by
  rcases Course.message_step hMessage' with ⟨m, outcome, hMessage, rfl⟩ | ⟨m, sent, rfl, -, rfl⟩
  · by_cases hUndone : m.outcome = none
    · rcases h.inStep.response hMessage hUndone hMessage' hOutcome with rfl | ⟨-, hDue, hCut⟩
      · exact absurd rfl (hPermits response)
      · -- All who have entered the sink expect a reply, so the number of replies is the place.
        rw [h.expectant_eq, h.inStep.entered] at hDue
        obtain ⟨_, hPlace⟩ := List.getElem?_eq_some_iff.mp hDue
        rw [List.getElem_range] at hPlace
        have hNew : (d.step event).course.journal.frames = _ := hCut
        rw [hNew, ← hPlace, List.getElem?_concat_length]
    · -- An outcome is final, and so is the reply it came from.
      have hKept := d.course.connection.getElem?_step_of_completed .echo event hMessage hUndone
      obtain hSame := Option.some.inj (hMessage'.symm.trans hKept)
      rw [hSame] at hOutcome
      exact getElem?_of_prefix hFrames (h.answered k m response hMessage hOutcome)
  · exact absurd hOutcome (hPermits.2 response)

theorem step (h : InEcho d due) (hPermits : d.Permits event) : ∃ due, InEcho (d.step event) due := by
  obtain ⟨due, hOwes, hFrames⟩ := h.owes_step event
  exact ⟨due, h.inStep.step event, hOwes, h.returned_step hPermits,
    fun k m' => h.expecting_step hPermits,
    fun k m' response => h.answered_step hPermits hFrames⟩

theorem run (h : InEcho d due) {events : List ConnectionEvent} (hPermitted : d.Permitted events) :
    ∃ due, InEcho (d.run events) due := by
  induction events generalizing d due with
  | nil => exact ⟨due, h⟩
  | cons event events ih =>
    obtain ⟨due, hNext⟩ := h.step hPermitted.1
    exact ih hNext hPermitted.2

theorem frames_prefix (h : InEcho d due) :
    d.course.journal.frames <+: d.course.journal.accepted.map (·.payload) := by
  have hEncoded := List.prefix_append d.course.journal.frames due
  rw [← h.encoded_eq_append, h.encoded_eq] at hEncoded
  exact hEncoded.trans (List.take_prefix _ _)

theorem payload_eq (h : InEcho d due) {k : Nat} {m : Message} {response : Response}
    (hMessage : d.course.connection.messages[k]? = some m)
    (hOutcome : m.outcome = some (.ok (some response))) : response.payload = m.payload := by
  have hPayloads : d.course.journal.accepted.map (·.payload) =
      d.course.connection.messages.map (·.payload) := by
    have hContents := congrArg (List.map Prod.fst) h.inStep.contents
    simpa [Connection.contents, Message.content, Function.comp_def] using hContents.symm
  have hPlace := getElem?_of_prefix h.frames_prefix (h.answered k m response hMessage hOutcome)
  rw [hPayloads, List.getElem?_map, hMessage] at hPlace
  exact (Option.some.inj hPlace).symm

end InEcho

/-! How a dialogue can fail. -/

/-- The causes other than one for which bytes have come that nobody expects. -/
def Blameless (events : List ConnectionEvent) (cause : Error) : Prop :=
  ∃ text, cause = .io text ∧ ((∃ event ∈ events, event.failure? = some text) ∨
    ∀ n, text ≠ (Echo.CodecError.unexpectedBytes n).message)

theorem Blameless.mono {events more : List ConnectionEvent} {cause : Error} (h : Blameless events cause)
    (hMore : events ⊆ more) : Blameless more cause := by
  obtain ⟨text, hText, hCause⟩ := h
  refine ⟨text, hText, hCause.imp_left ?_⟩
  rintro ⟨event, hEvent, hFailure⟩
  exact ⟨event, hMore hEvent, hFailure⟩

namespace InEcho
variable {d : Dialogue} {due : List Bytes} {event : ConnectionEvent}

theorem decoded_ne (h : InEcho d due) (n : Nat) :
    d.course.connection.decoded .echo ≠ .error (Echo.CodecError.unexpectedBytes n).message := by
  intro hDecoded
  obtain ⟨found, hFinds, hFound⟩ := h.decoded_finds
  rw [hFound] at hDecoded
  cases hFinds with
  | nothing | reply => cases hDecoded
  | cutShort count =>
    obtain ⟨n, hCause⟩ := Echo.CodecError.eq_unexpectedBytes_of_message (Except.error.inj hDecoded)
    cases hCause

theorem blameless_of_ends (h : InEcho d due) {own : Nat → Option Outcome} {cause : Error}
    (hEnds : d.course.connection.Ends .echo event own (.failed cause)) : Blameless [event] cause := by
  cases hEnds with
  | refused hNext hEncode =>
    refine ⟨_, rfl, .inr fun n hText => ?_⟩
    rw [echo_encode_eq_error hEncode] at hText
    obtain ⟨n, hCause⟩ := Echo.CodecError.eq_unexpectedBytes_of_message hText
    cases hCause
  | unwritten text => exact ⟨text, rfl, .inl ⟨_, List.mem_cons_self, rfl⟩⟩
  | unread text => exact ⟨text, rfl, .inl ⟨_, List.mem_cons_self, rfl⟩⟩
  | undecodable hNext hDecoded =>
    refine ⟨_, rfl, .inr fun n hText => ?_⟩
    exact h.decoded_ne n (hText ▸ hDecoded)
  | @unexpected frame hNext hDecoded hDue =>
    -- A length was expected, and as many messages wait.
    obtain ⟨hOpen, -⟩ := hNext ▸ d.course.connection.allowed_next
    obtain ⟨later, rfl, -⟩ := h.decoded_eq_some hDecoded
    have hLength := h.length_pending hOpen
    simp [hDue] at hLength

theorem blameless_run (h : InEcho d due) {events : List ConnectionEvent}
    (hPermitted : d.Permitted events) {cause : Error} (hFailed : (d.run events).course.connection.termination = some (.failed cause)) :
    d.course.connection.termination = some (.failed cause) ∨ Blameless events cause := by
  induction events generalizing d due with
  | nil => exact .inl hFailed
  | cons event events ih =>
    obtain ⟨due', hNext⟩ := h.step hPermitted.1
    rcases ih hNext hPermitted.2 hFailed with hEnded | hLater
    · rcases d.course.connection.livesOn_or_endsWith .echo event with ⟨hLives, -⟩ | hEnds
      · exact .inl (hLives.symm.trans hEnded)
      · obtain ⟨-, own, termination, hEnds, hTermination, -⟩ := hEnds
        cases hTermination.symm.trans hEnded
        exact .inr ((h.blameless_of_ends hEnds).mono (by simp))
    · exact .inr (hLater.mono (List.subset_cons_self event events))

end InEcho

/-- Whatever is sent, however the echo comes back, and whenever messages run out of time or the
connection is closed or fails: a message that gets a reply gets its own payload, and no byte comes
that the codec does not expect and no reply that no message waits for. -/
theorem echoes_find_their_messages (id : ConnectionId) (cancelled : Bool)
    (events : List ConnectionEvent) (hPermitted : (Dialogue.start id cancelled).Permitted events) :
    let d := (Dialogue.start id cancelled).run events
    let c := d.course.connection
    c = (Connection.new id cancelled .empty).run .echo events ∧
    (∀ (k : Nat) (m : Message) (response : Response), c.messages[k]? = some m →
      m.outcome = some (.ok (some response)) → response.payload = m.payload) ∧
    d.course.journal.frames <+: d.course.journal.accepted.map (·.payload) ∧
    c.termination ≠ some (.failed c.unexpected) ∧
    ∀ n, c.decoded .echo ≠ .error (Echo.CodecError.unexpectedBytes n).message ∧
      (c.termination = some (.failed (.io (Echo.CodecError.unexpectedBytes n).message)) →
        ∃ event ∈ events, event.failure? = some (Echo.CodecError.unexpectedBytes n).message) := by
  intro d c
  have hStart : InEcho (.start id cancelled) [] := .start id cancelled
  obtain ⟨due, h⟩ := hStart.run hPermitted
  have hBlameless {cause : Error} (hFailed : c.termination = some (.failed cause)) :
      Blameless events cause :=
    (hStart.blameless_run hPermitted hFailed).resolve_left nofun
  refine ⟨?_, fun k m response => h.payload_eq, h.frames_prefix, fun hUnexpected => ?_,
    fun n => ⟨h.decoded_ne n, fun hFailed => ?_⟩⟩
  · have hCourse := Dialogue.run_course (.start id cancelled) events
    exact (congrArg Course.connection hCourse).trans (Course.connection_run .echo _ events)
  · obtain ⟨text, hText, -⟩ := hBlameless hUnexpected
    cases hText
  · obtain ⟨text, hText, hCause⟩ := hBlameless hFailed
    cases hText
    exact hCause.resolve_right fun hOther => hOther n rfl

/-- Two messages are on their way when someone else completes the first. Their echo comes in pieces that
know nothing of messages. -/
def oddPieces : List ConnectionEvent :=
  [.send (.new [1, 2] ⟨1000⟩), .send (.new [3] ⟨1000⟩),
    .turn, .written 1, .written 1, .flushed, .turn, .written 1, .flushed,
    .complete 0 (.error .cancelled), .received [1], .turn, .received [2, 3], .turn, .turn]

theorem echoes_find_their_messages_oddPieces :
    let c := ((Dialogue.start ⟨1⟩ false).run oddPieces).course.connection
    (c.messages[0]?).map (·.outcome) = some (some (.error .cancelled)) ∧
      ∃ m response, c.messages[1]? = some m ∧ m.outcome = some (.ok (some response)) ∧
        response.payload = m.payload := by
  intro c
  have hPermitted : (Dialogue.start ⟨1⟩ false).Permitted oddPieces := by
    refine ⟨⟨rfl, nofun⟩, ⟨rfl, nofun⟩, trivial, trivial, trivial, trivial, trivial, trivial, trivial,
      nofun, fun _ => ?_, trivial, fun _ => ?_, trivial, trivial, trivial⟩
    · change [1] <+: _
      decide +kernel
    · change [1, 2, 3] <+: _
      decide +kernel
  obtain ⟨-, hReplies, -⟩ := echoes_find_their_messages ⟨1⟩ false oddPieces hPermitted
  have hAnswered : (c.messages[1]?).map (·.outcome) = some (some (.ok (some ⟨[3], ⟨1⟩⟩))) := by
    decide +kernel
  obtain ⟨m, hMessage, hOutcome⟩ := Option.map_eq_some_iff.mp hAnswered
  exact ⟨by decide +kernel, m, _, hMessage, hOutcome, hReplies 1 m _ hMessage hOutcome⟩

end Switchyard.Client
