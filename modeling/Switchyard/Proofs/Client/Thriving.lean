import Switchyard.Proofs.Client.Activity
import Switchyard.Proofs.Client.EchoReplies

/-! # A dialogue that goes on

As long as payloads are not empty, and nobody closes the connection or lets it fail, a client in dialogue
with an echo does nothing that would end it. It looks for a reply whenever one may have arrived.
-/
namespace Switchyard.Client
open Net
set_option autoImplicit false

namespace Connection

/-- The payloads whose reply is due, the next one first. -/
def duePayloads (c : Connection Echo.Codec) : List Bytes :=
  c.pending.map fun k => ((c.messages[k]?).map (·.payload)).getD []

/-- The next reply has not arrived as a whole. -/
def Lacks (c : Connection Echo.Codec) : Prop :=
  ∀ length ∈ c.codec.expected.head?, c.incoming.length < length

/-- Nothing has come up that would end the connection, and no reply is overlooked. -/
structure Thrives (c : Connection Echo.Codec) : Prop where
  unended : c.termination = none
  active : c.handle.isActive = true
  attached : c.senderDropped = false
  fed : c.inboundEnded = false
  searched : c.readable = false → c.Lacks

theorem readable_of_decode {c : Connection Echo.Codec} (h : c.next = .decode) : c.readable = true := by
  obtain ⟨hOpen, hActive, hWriting, hQueued⟩ := h ▸ c.allowed_next
  by_contra hSearched
  simp only [next, hasEnded, hOpen, hActive, hWriting, hQueued, hSearched, Option.isSome_none,
    Bool.not_true, Bool.false_eq_true, if_false] at h
  split at h <;> cases h

namespace Thrives
variable {c : Connection Echo.Codec}

theorem new (id : ConnectionId) : (Connection.new id false Echo.Codec.empty).Thrives :=
  ⟨rfl, rfl, rfl, rfl, fun _ => nofun⟩

theorem complete (h : c.Thrives) (k : Nat) (outcome : Outcome) : (c.complete k outcome).Thrives := by
  rw [complete_eq]
  exact ⟨h.unended, h.active, h.attached, h.fed, h.searched⟩

theorem send (h : c.Thrives) (m : Message) : (c.step .echo (.send m)).Thrives := by
  cases hSend : c.send m with
  | error cause => rwa [step_send_of_error .echo hSend]
  | ok sent =>
    obtain ⟨-, -, -, hSent⟩ := send_eq_ok hSend
    rw [step_send_of_ok .echo hSend, hSent]
    exact ⟨h.unended, h.active, h.attached, h.fed, h.searched⟩

theorem written (h : c.Thrives) (n : Nat) : (c.written n).Thrives := by
  unfold Connection.written
  split
  · exact ⟨h.unended, h.active, h.attached, h.fed, h.searched⟩
  · exact h

theorem flushed (h : c.Thrives) : c.flushed.Thrives := by
  have hSent : Thrives { c with writing := none } :=
    ⟨h.unended, h.active, h.attached, h.fed, h.searched⟩
  unfold Connection.flushed
  split
  · dsimp only
    split
    · exact hSent
    · exact hSent.complete _ _
  · exact h

theorem received (h : c.Thrives) {data : Bytes} (hData : data ≠ []) : (c.received data).Thrives := by
  unfold Connection.received
  split
  · refine ⟨h.unended, h.active, h.attached, ?_, nofun⟩
    simp [h.fed, hData]
  · exact h

theorem next_ne_leave (h : c.Thrives) : c.next ≠ .leave := by
  intro hNext
  obtain ⟨hOpen, hActive, hWriting, hQueued⟩ := hNext ▸ c.allowed_next
  simp only [next, hasEnded, hOpen, hActive, hWriting, hQueued, h.attached, Option.isSome_none,
    Bool.not_true, Bool.false_eq_true, if_false] at hNext
  split at hNext <;> cases hNext

theorem deliver (h : c.Thrives) (hWaiting : c.pending ≠ []) (payload : Bytes) :
    (c.deliver payload).Thrives := by
  obtain ⟨k, others, hPending⟩ := List.exists_cons_of_ne_nil hWaiting
  have hRest : Thrives { c with pending := others } :=
    ⟨h.unended, h.active, h.attached, h.fed, h.searched⟩
  rw [deliver_of_cons hPending]
  exact hRest.complete _ _

theorem awaited_of_writing (h : c.Thrives) {k : Nat} (hWriting : c.writing = some k) :
    c.awaited = if c.outgoing.isEmpty then .flush else .write := by
  simp [awaited, hasEnded, h.unended, h.active, hWriting]

theorem next_of_queued (h : c.Thrives) (hWriting : c.writing = none) {k : Nat} {others : List Nat}
    (hQueued : c.queued = k :: others) {m : Message} (hMessage : c.messages[k]? = some m) :
    c.next = .take k m := by
  simp [next, hasEnded, h.unended, h.active, hWriting, hQueued, hMessage]

theorem next_of_readable (h : c.Thrives) (hWriting : c.writing = none) (hQueued : c.queued = [])
    (hReadable : c.readable = true) : c.next = .decode := by
  simp [next, hasEnded, h.unended, h.active, h.attached, hWriting, hQueued, hReadable]

theorem awaited_of_searched (h : c.Thrives) (hWriting : c.writing = none) (hQueued : c.queued = [])
    (hReadable : c.readable = false) : c.awaited = .read := by
  simp [awaited, hasEnded, h.unended, h.active, h.attached, hWriting, hQueued, hReadable]

end Thrives
end Connection

namespace InEcho
open Connection
variable {d : Dialogue} {due : List Bytes} {event : ConnectionEvent}

theorem head?_expected (h : InEcho d due) :
    d.course.connection.codec.expected.head? = due.head?.map List.length := by
  have hCodec : d.course.connection.codec = .awaiting due := h.owes.codec
  rw [hCodec]
  exact List.head?_map

theorem decoded_or_lacks (h : InEcho d due) (hFed : d.course.connection.inboundEnded = false) :
    (∃ reply, d.course.connection.decoded .echo = .ok (some reply)) ∧ ¬d.course.connection.Lacks ∨
      d.course.connection.decoded .echo = .ok none ∧ d.course.connection.Lacks := by
  have hCodec : d.course.connection.codec = .awaiting due := h.owes.codec
  have hIncoming := h.incoming_prefix
  unfold decoded Lacks
  rw [hFed, hCodec]
  cases due with
  | nil =>
    obtain hNothing : d.course.connection.incoming = [] := List.prefix_nil.mp hIncoming
    right
    constructor
    · rw [hNothing]
      rfl
    · exact nofun
  | cons payload later =>
    by_cases hWhole : payload.length ≤ d.course.connection.incoming.length
    · left
      constructor
      · simp [Codec.echo, Echo.Codec.decode, Echo.Codec.awaiting, hWhole, Except.mapError]
      · simpa [Echo.Codec.awaiting] using hWhole
    · right
      constructor
      · simp [Codec.echo, Echo.Codec.decode, Echo.Codec.awaiting, hWhole, Except.mapError]
      · simpa [Echo.Codec.awaiting] using hWhole

/-- A length that is expected next does not change with what is expected after it. -/
theorem lacks_append (h : InEcho d due) (hLacks : d.course.connection.Lacks) {payload : Bytes}
    (hPayload : payload ≠ []) (length : Nat)
    (hHead : length ∈ (d.course.connection.codec.expected ++ [payload.length]).head?) :
    d.course.connection.incoming.length < length := by
  have hIncoming := h.incoming_prefix
  have hExpected := h.head?_expected
  cases due with
  | nil =>
    obtain hNothing : d.course.connection.incoming = [] := List.prefix_nil.mp hIncoming
    obtain hNone : d.course.connection.codec.expected = [] := List.head?_eq_none_iff.mp hExpected
    obtain rfl : payload.length = length := by simpa [hNone] using hHead
    rw [hNothing]
    exact List.length_pos_iff.mpr hPayload
  | cons first later =>
    apply hLacks
    rw [List.head?_append, hExpected] at hHead
    rw [hExpected]
    exact hHead

theorem thrives_take (h : InEcho d due) (hThrives : d.course.connection.Thrives) {k : Nat} {m : Message}
    (hPayload : m.payload ≠ []) :
    ({ d.course.connection with queued := d.course.connection.queued.tail }.begin .echo k m).Thrives := by
  have hEncode : Codec.echo.encode d.course.connection.codec m.payload =
      .ok (m.payload, ⟨d.course.connection.codec.expected ++ [m.payload.length]⟩) := by
    simp [Codec.echo, Echo.Codec.encode, hPayload, Except.mapError]
  unfold begin
  rw [hEncode]
  refine ⟨hThrives.unended, hThrives.active, hThrives.attached, hThrives.fed, fun hReadable => ?_⟩
  exact h.lacks_append (hThrives.searched hReadable) hPayload

theorem thrives_decode (h : InEcho d due) (hThrives : d.course.connection.Thrives)
    (hNext : d.course.connection.next = .decode) : (d.course.connection.decode .echo).Thrives := by
  unfold decode
  rcases h.decoded_or_lacks hThrives.fed with
    ⟨⟨⟨payload, rest, state⟩, hDecoded⟩, -⟩ | ⟨hDecoded, hLacks⟩
  · obtain ⟨later, hDue, -⟩ := h.decoded_eq_some hDecoded
    have hLength := h.length_pending hThrives.unended
    have hWaiting : d.course.connection.pending ≠ [] := by
      intro hNobody
      simp [hNobody, hDue] at hLength
    have hCut : Thrives { d.course.connection with incoming := rest, codec := state } := by
      refine ⟨hThrives.unended, hThrives.active, hThrives.attached, hThrives.fed, fun hSearched => ?_⟩
      exact absurd (readable_of_decode hNext) (Bool.eq_false_iff.mp hSearched)
    rw [hDecoded]
    exact hCut.deliver hWaiting payload
  · rw [hDecoded]
    dsimp only
    rw [if_neg (Bool.eq_false_iff.mp hThrives.fed)]
    exact ⟨hThrives.unended, hThrives.active, hThrives.attached, hThrives.fed, fun _ => hLacks⟩

theorem thrives_turn (h : InEcho d due) (hThrives : d.course.connection.Thrives)
    (hFilled : ∀ (k : Nat) (m : Message), d.course.connection.messages[k]? = some m → m.payload ≠ []) :
    (d.course.connection.step .echo .turn).Thrives := by
  change (d.course.connection.turn .echo).Thrives
  unfold turn
  cases hNext : d.course.connection.next with
  | rest => exact hThrives
  | shut =>
    obtain ⟨-, hClosing⟩ := hNext ▸ d.course.connection.allowed_next
    exact absurd hThrives.active (Bool.eq_false_iff.mp hClosing)
  | leave => exact absurd hNext hThrives.next_ne_leave
  | take k m =>
    obtain ⟨-, -, -, hMessage, -⟩ := hNext ▸ d.course.connection.allowed_next
    exact h.thrives_take hThrives (hFilled k m hMessage)
  | decode => exact h.thrives_decode hThrives hNext

theorem filled_step (hFilled : ∀ (k : Nat) (m : Message), d.course.connection.messages[k]? = some m →
      m.payload ≠ []) (hSent : ∀ m, event = .send m → m.payload ≠ []) {k : Nat} {m' : Message}
    (hMessage' : (d.step event).course.connection.messages[k]? = some m') : m'.payload ≠ [] := by
  rcases Course.message_step hMessage' with ⟨m, outcome, hMessage, rfl⟩ | ⟨m, sent, rfl, -, rfl⟩
  · exact hFilled k m hMessage
  · exact hSent m rfl

theorem due_eq (h : InEcho d due) (hOpen : d.course.connection.termination = none) :
    due = d.course.connection.duePayloads := by
  have hPayloads : ∀ k : Nat, (d.course.connection.messages[k]?).map Message.payload =
      (d.course.journal.accepted[k]?).map Message.payload := by
    intro k
    have hContent := congrArg (fun contents => (contents[k]?).map Prod.fst) h.inStep.contents
    simpa [Connection.contents, Message.content, Function.comp_def] using hContent
  have hSame : List.Forall₂ Eq d.course.journal.sink d.course.journal.encoded :=
    h.inStep.encoded.imp fun _ _ hEncoding => (eq_of_isEncoding_echo hEncoding).symm
  rw [List.forall₂_eq_eq_eq] at hSame
  have hEncoded : d.course.journal.encoded = d.course.journal.entered.map fun k =>
      ((d.course.connection.messages[k]?).map Message.payload).getD [] := by
    rw [← hSame, Journal.sink, ← List.filterMap_eq_map]
    apply List.filterMap_congr
    intro k hk
    have hLt := h.inStep.lt_of_mem_entered hk
    simp [hPayloads, hLt]
  rw [duePayloads, h.inStep.pending hOpen, h.expectant_eq, List.map_drop, ← hEncoded,
    h.encoded_eq_append, List.drop_left]

end InEcho

theorem Dialogue.wire_step (d : Dialogue) (event : ConnectionEvent)
    (hUnwritten : ∀ n, event ≠ .written n) :
    (d.step event).course.journal.wire = d.course.journal.wire := by
  change (d.course.journal.record .echo d.course.connection event).wire = d.course.journal.wire
  cases event with
  | written n => exact absurd rfl (hUnwritten n)
  | turn => cases hNext : d.course.connection.next <;> simp [Journal.record, hNext]
  | send m | flushed =>
    unfold Journal.record
    dsimp only
    split <;> rfl
  | complete | close | cancelParent | dropSender | expire | writeFailed | received | readFailed => rfl

end Switchyard.Client
