import Mathlib.Data.List.Forall2
import Switchyard.Proofs.Client.Journal

/-! # A connection in step with its journal

The invariant of every run: what is queued, what is being written and whose reply is due can be read
off the journal, and what the transport has taken are the payloads in the order of sending.
-/
namespace Switchyard.Client
open Net
set_option autoImplicit false

theorem eq_range_of_append_eq_range {entered queued : List Nat} {n : Nat}
    (h : entered ++ queued = List.range n) :
    entered = List.range entered.length ∧ entered.length ≤ n := by
  have hLength := congrArg List.length h
  rw [List.length_append, List.length_range] at hLength
  refine ⟨?_, by omega⟩
  calc
    entered = (entered ++ queued).take entered.length := List.take_left.symm
    _ = List.range entered.length := by rw [h, List.take_range, Nat.min_eq_left (by omega)]

/-- Some state of the codec has turned the payload into these bytes. -/
def IsEncoding {γ : Type} (codec : Codec γ) (payload bytes : Bytes) : Prop :=
  ∃ before after, codec.encode before payload = .ok (bytes, after)

/-- A connection keeps step with its journal. What is to be written and whose reply is due follows
from the journal as long as the connection has not ended. -/
structure InStep {γ : Type} (codec : Codec γ) (t : Course γ) : Prop where
  contents : t.connection.contents = t.journal.accepted.map Message.content
  entered : t.journal.entered = List.range t.journal.entered.length
  begun : t.journal.entered.length ≤ t.journal.accepted.length
  encoded : List.Forall₂ (IsEncoding codec) t.journal.sink t.journal.encoded
  wire : t.journal.wire ++ t.connection.outgoing = t.journal.encoded.flatten
  waiting : t.connection.termination = none →
    t.journal.entered ++ t.connection.queued = List.range t.journal.accepted.length
  idle : t.connection.termination = none → t.connection.writing = none → t.connection.outgoing = []
  answered : t.connection.termination = none → t.journal.frames.length ≤ t.expectant.length
  pending : t.connection.termination = none →
    t.connection.pending = t.expectant.drop t.journal.frames.length
  timers : ∀ k ∈ t.journal.timers, t.connection.expectsReply k = true
  writing : t.connection.termination = none →
    t.journal.entered = t.journal.flushed ++ t.connection.writing.toList

namespace InStep
variable {γ : Type} {codec : Codec γ} {t : Course γ}

theorem length_messages (h : InStep codec t) :
    t.connection.messages.length = t.journal.accepted.length := by
  have hLength := congrArg List.length h.contents
  rwa [Connection.contents, List.length_map, List.length_map] at hLength

theorem lt_of_mem_entered (h : InStep codec t) {k : Nat} (hk : k ∈ t.journal.entered) :
    k < t.journal.accepted.length := by
  rw [h.entered, List.mem_range] at hk
  have := h.begun
  omega

theorem sink_eq (h : InStep codec t) :
    t.journal.sink = (t.journal.accepted.map (·.payload)).take t.journal.entered.length := by
  have hSink : ∀ n, n ≤ t.journal.accepted.length →
      (List.range n).filterMap (fun k => (t.journal.accepted[k]?).map (·.payload)) =
        (t.journal.accepted.map (·.payload)).take n := by
    intro n hn
    induction n with
    | zero => simp
    | succ n ih =>
      have hLt : n < t.journal.accepted.length := by omega
      rw [List.range_succ, List.filterMap_append, ih (by omega), List.take_add_one, List.getElem?_map]
      simp [hLt]
  rw [Journal.sink, h.entered, hSink _ h.begun, List.length_range]

/-- Nothing but the fields named here matters. -/
theorem of_same (h : InStep codec t) {c : Connection γ}
    (hContents : c.contents = t.connection.contents)
    (hOutgoing : c.outgoing = t.connection.outgoing)
    (hQueued : c.queued = t.connection.queued)
    (hWriting : c.writing = t.connection.writing)
    (hPending : c.pending = t.connection.pending)
    (hTermination : c.termination = t.connection.termination) :
    InStep codec ⟨c, t.journal⟩ := by
  have hExpects : c.expectsReply = t.connection.expectsReply := Connection.expectsReply_congr hContents
  have hExpectant : (⟨c, t.journal⟩ : Course γ).expectant = t.expectant :=
    congrArg (t.journal.entered.filter ·) hExpects
  exact {
    contents := hContents.trans h.contents
    entered := h.entered
    begun := h.begun
    encoded := h.encoded
    wire := hOutgoing ▸ h.wire
    waiting := fun hOpen => hQueued ▸ h.waiting (hTermination ▸ hOpen)
    idle := fun hOpen hIdle => hOutgoing.trans (h.idle (hTermination ▸ hOpen) (hWriting ▸ hIdle))
    answered := fun hOpen => hExpectant ▸ h.answered (hTermination ▸ hOpen)
    pending := fun hOpen => by rw [hPending, hExpectant, h.pending (hTermination ▸ hOpen)]
    timers := hExpects ▸ h.timers
    writing := fun hOpen => hWriting ▸ h.writing (hTermination ▸ hOpen) }

/-- After the end nothing is promised of queues any more. -/
theorem of_finish (h : InStep codec t) {c : Connection γ} (termination : Termination)
    {frames : List Bytes} {timers : List Nat} (hContents : c.contents = t.connection.contents)
    (hOutgoing : c.outgoing = t.connection.outgoing)
    (hTimers : ∀ k ∈ timers, t.connection.expectsReply k = true) :
    InStep codec ⟨c.finish termination, { t.journal with frames, timers }⟩ where
  contents := (c.contents_finish termination).trans (hContents.trans h.contents)
  entered := h.entered
  begun := h.begun
  encoded := h.encoded
  wire := by
    rw [Connection.outgoing_finish, hOutgoing]
    exact h.wire
  waiting hOpen := by simp at hOpen
  idle hOpen := by simp at hOpen
  answered hOpen := by simp at hOpen
  pending hOpen := by simp at hOpen
  timers := by
    rw [Connection.expectsReply_congr ((c.contents_finish termination).trans hContents)]
    exact hTimers
  writing hOpen := by simp at hOpen

/-- A connection that has just ended. -/
theorem finish (h : InStep codec t) (termination : Termination) :
    InStep codec ⟨t.connection.finish termination, t.journal⟩ :=
  h.of_finish termination rfl rfl h.timers

theorem complete (h : InStep codec t) (k : Nat) (outcome : Outcome) :
    InStep codec ⟨t.connection.complete k outcome, t.journal⟩ := by
  rw [Connection.complete_eq]
  exact h.of_same (map_content_settle _ _) rfl rfl rfl rfl rfl

theorem expire (h : InStep codec t) (k : Nat) (metrics : Metrics) :
    InStep codec ⟨(t.connection.expire k metrics).2.1, t.journal⟩ := by
  obtain ⟨handle, hExpire⟩ := t.connection.expire_connection k metrics
  rw [hExpire]
  exact h.of_same (map_content_settle _ _) rfl rfl rfl rfl rfl

theorem send (h : InStep codec t) {m : Message} {k : Nat} {sent : Connection γ}
    (hSend : t.connection.send m = .ok (k, sent)) :
    InStep codec ⟨sent, { t.journal with accepted := t.journal.accepted ++ [m] }⟩ := by
  obtain ⟨hOpen, -, -, rfl⟩ := Connection.send_eq_ok hSend
  have hLength := h.length_messages
  have hSink : { t.journal with accepted := t.journal.accepted ++ [m] : Journal }.sink = t.journal.sink :=
    List.filterMap_congr fun k hk => by rw [List.getElem?_append_left (h.lt_of_mem_entered hk)]
  have hStays (k : Nat) (hLt : k < t.connection.messages.length) :
      (t.connection.messages ++ [{ m with connection := some t.connection.id }])[k]?.any
        (·.expectsResponse) = t.connection.expectsReply k := by
    rw [List.getElem?_append_left hLt, Connection.expectsReply]
  have hExpectant : (⟨{ t.connection with
        messages := t.connection.messages ++ [{ m with connection := some t.connection.id }]
        queued := t.connection.queued ++ [t.connection.messages.length] },
      { t.journal with accepted := t.journal.accepted ++ [m] }⟩ : Course γ).expectant = t.expectant := by
    exact List.filter_congr fun k hk => hStays k (hLength ▸ h.lt_of_mem_entered hk)
  exact {
    contents := by
      have hContents := h.contents
      rw [Connection.contents] at hContents
      simp [Connection.contents, hContents, Message.content]
    entered := h.entered
    begun := by
      have := h.begun
      simp only [List.length_append]
      omega
    encoded := hSink ▸ h.encoded
    wire := h.wire
    waiting := fun _ => by
      simp only [List.length_append, List.length_singleton]
      rw [← List.append_assoc, h.waiting hOpen, hLength, List.range_succ]
    idle := fun _ => h.idle hOpen
    answered := fun _ => hExpectant ▸ h.answered hOpen
    pending := fun _ => hExpectant ▸ h.pending hOpen
    timers := fun k hk => (hStays k (Connection.lt_of_expectsReply (h.timers k hk))).trans (h.timers k hk)
    writing := fun _ => h.writing hOpen }

/-- A message whose payload can be encoded enters the sink behind all the others. -/
theorem enter (h : InStep codec t) {k : Nat} {m : Message} {bytes : Bytes} {state : γ}
    (hNext : t.connection.next = .take k m)
    (hEncode : codec.encode t.connection.codec m.payload = .ok (bytes, state)) {timers : List Nat}
    (hTimers : ∀ i ∈ timers, t.connection.expectsReply i = true) :
    InStep codec ⟨{ t.connection with
      codec := state, writing := some k, outgoing := bytes, queued := t.connection.queued.tail
      pending := if m.expectsResponse then t.connection.pending ++ [k] else t.connection.pending },
      { t.journal with
        entered := t.journal.entered ++ [k], encoded := t.journal.encoded ++ [bytes], timers }⟩ := by
  obtain ⟨hOpen, -, hIdle, hMessage, hQueued⟩ := hNext ▸ t.connection.allowed_next
  have hWaiting := h.waiting hOpen
  rw [hQueued, ← List.singleton_append, ← List.append_assoc] at hWaiting
  obtain ⟨hEntered, hBegun⟩ := eq_range_of_append_eq_range hWaiting
  have hPayload : (t.journal.accepted[k]?).map (·.payload) = some m.payload := by
    have hContent := congrArg (·[k]?) h.contents
    simp only [Connection.contents, List.getElem?_map, hMessage] at hContent
    cases hAccepted : t.journal.accepted[k]? with
    | none => simp [hAccepted] at hContent
    | some sent =>
      rw [hAccepted] at hContent
      exact congrArg (Option.map Prod.fst) hContent.symm
  have hSink : { t.journal with
      entered := t.journal.entered ++ [k], encoded := t.journal.encoded ++ [bytes], timers : Journal }.sink =
      t.journal.sink ++ [m.payload] := by
    simp [Journal.sink, List.filterMap_append, hPayload]
  have hExpects := Connection.expectsReply_of_message hMessage
  have hAnswered := h.answered hOpen
  have hPending := h.pending hOpen
  simp only [Course.expectant] at hAnswered hPending
  exact {
    contents := h.contents
    entered := hEntered
    begun := hBegun
    encoded := by
      rw [hSink]
      exact List.rel_append h.encoded (.cons ⟨_, _, hEncode⟩ .nil)
    wire := by
      have hWire := h.wire
      rw [h.idle hOpen hIdle, List.append_nil] at hWire
      simp [hWire]
    waiting := fun _ => hWaiting
    idle := fun _ hWriting => by cases hWriting
    answered := fun _ => by
      simp only [Course.expectant, List.filter_append, List.length_append]
      exact Nat.le_trans hAnswered (Nat.le_add_right _ _)
    pending := fun _ => by
      change _ = ((t.journal.entered ++ [k]).filter t.connection.expectsReply).drop _
      rw [List.filter_append, List.drop_append_of_le_length hAnswered, ← hPending]
      cases hReply : m.expectsResponse <;> simp [hExpects, hReply]
    timers := hTimers
    writing := fun _ => by simpa [hIdle] using h.writing hOpen }

theorem take (h : InStep codec t) {k : Nat} {m : Message} (hNext : t.connection.next = .take k m) :
    InStep codec (t.step codec .turn) := by
  obtain ⟨-, -, -, hMessage, -⟩ := hNext ▸ t.connection.allowed_next
  have hExpects := Connection.expectsReply_of_message hMessage
  have hTimers : ∀ i ∈ if m.expectsResponse then t.journal.timers ++ [k] else t.journal.timers,
      t.connection.expectsReply i = true := by
    intro i hi
    split at hi
    case isTrue hReply =>
      rcases List.mem_append.mp hi with hOld | hNew
      · exact h.timers i hOld
      · rw [List.mem_singleton.mp hNew, hExpects, hReply]
    case isFalse => exact h.timers i hi
  unfold Course.step Connection.step Journal.record Connection.turn Connection.begin Journal.take
  simp only [hNext]
  cases hEncode : codec.encode t.connection.codec m.payload with
  | error cause =>
    cases hReply : m.expectsResponse <;> rw [hReply] at hTimers <;>
      exact h.of_finish _ (Connection.contents_complete _ _ _) rfl hTimers
  | ok encoded =>
    obtain ⟨bytes, state⟩ := encoded
    have hEnter := h.enter hNext hEncode hTimers
    cases hReply : m.expectsResponse <;> simpa [hReply] using hEnter

/-- A reply goes to the message whose turn it is. -/
theorem deliver (h : InStep codec t) (hOpen : t.connection.termination = none) (payload : Bytes) :
    InStep codec ⟨t.connection.deliver payload,
      { t.journal with frames := t.journal.frames ++ [payload] }⟩ := by
  have hPending := h.pending hOpen
  cases hDue : t.connection.pending with
  | nil =>
    rw [Connection.deliver_of_nil hDue]
    exact h.of_finish _ rfl rfl h.timers
  | cons k others =>
    rw [Connection.deliver_of_cons hDue]
    rw [hDue] at hPending
    have hLt : t.journal.frames.length < t.expectant.length := by
      by_contra hLe
      rw [List.drop_eq_nil_of_le (by omega)] at hPending
      cases hPending
    have hContents := Connection.contents_complete { t.connection with pending := others } k
      (.ok (some { payload, connection := t.connection.id }))
    have hExpectant : (⟨({ t.connection with pending := others } : Connection γ).complete k
          (.ok (some { payload, connection := t.connection.id })),
        { t.journal with frames := t.journal.frames ++ [payload] }⟩ : Course γ).expectant = t.expectant :=
      congrArg (t.journal.entered.filter ·) (Connection.expectsReply_congr hContents)
    exact {
      contents := hContents.trans h.contents
      entered := h.entered
      begun := h.begun
      encoded := h.encoded
      wire := h.wire
      waiting := h.waiting
      idle := h.idle
      answered := fun _ => by
        rw [hExpectant, List.length_append, List.length_singleton]
        exact hLt
      pending := fun _ => by
        rw [hExpectant, List.length_append, List.length_singleton, ← List.tail_drop, ← hPending]
        rfl
      timers := Connection.expectsReply_congr hContents ▸ h.timers
      writing := h.writing }

theorem decode (h : InStep codec t) (hNext : t.connection.next = .decode) :
    InStep codec (t.step codec .turn) := by
  obtain ⟨hOpen, -, -, -⟩ := hNext ▸ t.connection.allowed_next
  unfold Course.step Connection.step Journal.record Connection.turn Connection.decode Journal.cut
  simp only [hNext]
  cases hDecoded : t.connection.decoded codec with
  | error cause => exact h.finish _
  | ok found =>
    cases found with
    | none =>
      simp only
      split
      · exact h.finish _
      · exact h.of_same rfl rfl rfl rfl rfl rfl
    | some frame =>
      obtain ⟨payload, rest, state⟩ := frame
      have hCut : InStep codec ⟨{ t.connection with incoming := rest, codec := state }, t.journal⟩ :=
        h.of_same rfl rfl rfl rfl rfl rfl
      exact hCut.deliver hOpen payload

theorem turn (h : InStep codec t) : InStep codec (t.step codec .turn) := by
  cases hNext : t.connection.next with
  | take k m => exact h.take hNext
  | decode => exact h.decode hNext
  | rest =>
    unfold Course.step Connection.step Journal.record Connection.turn
    simp only [hNext]
    exact h
  | leave =>
    unfold Course.step Connection.step Journal.record Connection.turn
    simp only [hNext]
    exact h.finish _
  | shut =>
    unfold Course.step Connection.step Journal.record Connection.turn Connection.shut
    simp only [hNext]
    split
    · exact h.of_finish _ (Connection.contents_complete _ _ _) rfl h.timers
    · exact h.finish _

theorem written (h : InStep codec t) (n : Nat) : InStep codec (t.step codec (.written n)) := by
  unfold Course.step Connection.step Journal.record Connection.written
  simp only
  split
  case isFalse => exact h
  case isTrue hAwaited =>
    obtain ⟨hOpen, -, hWriting⟩ := hAwaited ▸ t.connection.allowed_awaited
    exact {
      contents := h.contents
      entered := h.entered
      begun := h.begun
      encoded := h.encoded
      wire := by
        rw [List.append_assoc, List.take_append_drop]
        exact h.wire
      waiting := h.waiting
      idle := fun _ hIdle => by
        have hNone : t.connection.writing = none := hIdle
        simp [hNone] at hWriting
      answered := h.answered
      pending := h.pending
      timers := h.timers
      writing := h.writing }

theorem flushed (h : InStep codec t) : InStep codec (t.step codec .flushed) := by
  unfold Course.step Connection.step Journal.record Connection.flushed
  cases hAwaited : t.connection.awaited with
  | nothing | write | read => exact h
  | flush =>
    obtain ⟨hOpen, -, hWriting, hOutgoing⟩ := hAwaited ▸ t.connection.allowed_awaited
    obtain ⟨k, hk⟩ := Option.isSome_iff_exists.mp hWriting
    have hDone : InStep codec ⟨{ t.connection with writing := none },
        { t.journal with flushed := t.journal.flushed ++ [k] }⟩ := {
      contents := h.contents
      entered := h.entered
      begun := h.begun
      encoded := h.encoded
      wire := h.wire
      waiting := h.waiting
      idle := fun _ _ => hOutgoing
      answered := h.answered
      pending := h.pending
      timers := h.timers
      writing := fun _ => by
        rw [h.writing hOpen, hk, Option.toList_some, Option.toList_none, List.append_nil] }
    simp only [hk]
    split
    · exact hDone
    · exact hDone.complete k (.ok none)

theorem writeFailed (h : InStep codec t) (cause : String) :
    InStep codec (t.step codec (.writeFailed cause)) := by
  unfold Course.step Connection.step Journal.record Connection.writeFailed
  simp only
  split
  · split
    · exact h.finish _
    · exact h.of_finish _ (Connection.contents_complete _ _ _) rfl h.timers
  · split
    · exact h.finish _
    · exact h.of_finish _ (Connection.contents_complete _ _ _) rfl h.timers
  · exact h

theorem step (h : InStep codec t) (event : ConnectionEvent) : InStep codec (t.step codec event) := by
  cases event with
  | send m =>
    cases hSend : t.connection.send m with
    | error cause =>
      rw [Course.step_send_of_error codec hSend]
      exact h
    | ok sent =>
      rw [Course.step_send_of_ok codec hSend]
      exact h.send hSend
  | complete k outcome => exact h.complete k outcome
  | close | cancelParent | dropSender => exact h.of_same rfl rfl rfl rfl rfl rfl
  | expire k => exact h.expire k []
  | turn => exact h.turn
  | written n => exact h.written n
  | flushed => exact h.flushed
  | writeFailed cause => exact h.writeFailed cause
  | received data =>
    unfold Course.step Connection.step Journal.record Connection.received
    simp only
    split
    · exact h.of_same rfl rfl rfl rfl rfl rfl
    · exact h
  | readFailed cause =>
    unfold Course.step Connection.step Journal.record Connection.readFailed
    simp only
    split
    · exact h.finish _
    · exact h

theorem start (codec : Codec γ) (id : ConnectionId) (cancelled : Bool) (state : γ) :
    InStep codec (.start (.new id cancelled state)) where
  contents := rfl
  entered := rfl
  begun := Nat.le_refl _
  encoded := .nil
  wire := rfl
  waiting _ := rfl
  idle _ _ := rfl
  answered _ := Nat.le_refl _
  pending _ := rfl
  timers _ hk := by cases hk
  writing _ := rfl

theorem run (h : InStep codec t) (events : List ConnectionEvent) : InStep codec (t.run codec events) := by
  induction events generalizing t with
  | nil => exact h
  | cons event events ih => exact ih (h.step event)

/-! Where a message is on its way, as long as the connection has not ended. -/

section Open
variable {k : Nat}

theorem nodup_entered (h : InStep codec t) : t.journal.entered.Nodup := by
  rw [h.entered]
  exact List.nodup_range

theorem not_flushed_of_writing (h : InStep codec t) (hOpen : t.connection.termination = none)
    (hWriting : t.connection.writing = some k) : k ∉ t.journal.flushed := by
  have hNodup := h.nodup_entered
  rw [h.writing hOpen, hWriting, Option.toList_some] at hNodup
  obtain ⟨-, -, hApart⟩ := List.nodup_append.mp hNodup
  exact fun hFlushed => hApart k hFlushed k List.mem_cons_self rfl

theorem entered_of_flushed (h : InStep codec t) (hOpen : t.connection.termination = none)
    (hFlushed : k ∈ t.journal.flushed) : k ∈ t.journal.entered :=
  h.writing hOpen ▸ List.mem_append_left _ hFlushed

theorem writing_iff (h : InStep codec t) (hOpen : t.connection.termination = none) :
    t.connection.writing = some k ↔ k ∈ t.journal.entered ∧ k ∉ t.journal.flushed := by
  constructor
  · intro hWriting
    refine ⟨?_, h.not_flushed_of_writing hOpen hWriting⟩
    rw [h.writing hOpen, hWriting]
    simp
  · rintro ⟨hEntered, hUnsent⟩
    rw [h.writing hOpen] at hEntered
    simpa [hUnsent] using hEntered

theorem queued_iff (h : InStep codec t) (hOpen : t.connection.termination = none)
    (hLt : k < t.journal.accepted.length) : k ∈ t.connection.queued ↔ k ∉ t.journal.entered := by
  have hWaiting := h.waiting hOpen
  have hNodup : (t.journal.entered ++ t.connection.queued).Nodup := hWaiting ▸ List.nodup_range
  obtain ⟨-, -, hApart⟩ := List.nodup_append.mp hNodup
  constructor
  · intro hQueued hEntered
    exact hApart k hEntered k hQueued rfl
  · intro hUnbegun
    have hMem : k ∈ t.journal.entered ++ t.connection.queued := hWaiting ▸ List.mem_range.mpr hLt
    exact (List.mem_append.mp hMem).resolve_left hUnbegun

theorem expectsReply_of_pending (h : InStep codec t) (hOpen : t.connection.termination = none)
    (hPending : k ∈ t.connection.pending) : t.connection.expectsReply k = true := by
  rw [h.pending hOpen] at hPending
  exact (List.mem_filter.mp (List.mem_of_mem_drop hPending)).2

/-- The message that waits longest is the one whose turn it is. -/
theorem due (h : InStep codec t) (hOpen : t.connection.termination = none) :
    t.connection.pending.head? = t.expectant[t.journal.frames.length]? := by
  rw [h.pending hOpen, List.head?_drop]

end Open

end InStep

end Switchyard.Client
