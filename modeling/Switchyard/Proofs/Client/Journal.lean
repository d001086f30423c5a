import Switchyard.Proofs.Client.Moves

/-! # The journal of a connection

Beside a connection runs a journal of what it has done: which messages it has accepted, which of them
have entered the sink and as what bytes, what replies it has cut from the bytes read, which timers it
has started. A course is a connection with its journal. The journal never acts on the connection.
-/
namespace Switchyard.Client
open Net
set_option autoImplicit false

/-- `accepted` has the messages as they were handed over; positions in it name them. -/
structure Journal where
  accepted : List Message
  entered : List Nat
  /-- What the payloads that entered the sink were encoded to. -/
  encoded : List Bytes
  /-- What the transport has taken. -/
  wire : Bytes
  frames : List Bytes
  timers : List Nat
  flushed : List Nat

namespace Journal
variable {γ : Type}

def empty : Journal :=
  { accepted := [], entered := [], encoded := [], wire := [], frames := [], timers := [], flushed := [] }

/-- The payloads that have entered the sink. -/
def sink (j : Journal) : List Bytes := j.entered.filterMap fun k => (j.accepted[k]?).map (·.payload)

def take (codec : Codec γ) (state : γ) (j : Journal) (k : Nat) (m : Message) : Journal :=
  let j := if m.expectsResponse then { j with timers := j.timers ++ [k] } else j
  match codec.encode state m.payload with
  | .ok (bytes, _) => { j with entered := j.entered ++ [k], encoded := j.encoded ++ [bytes] }
  | .error _ => j

def cut (decoded : Decoded γ) (j : Journal) : Journal :=
  match decoded with
  | .ok (some (payload, _, _)) => { j with frames := j.frames ++ [payload] }
  | _ => j

@[simp] theorem frames_take (codec : Codec γ) (state : γ) (j : Journal) (k : Nat) (m : Message) :
    (j.take codec state k m).frames = j.frames := by
  unfold take
  cases m.expectsResponse <;> cases codec.encode state m.payload <;> rfl

@[simp] theorem flushed_take (codec : Codec γ) (state : γ) (j : Journal) (k : Nat) (m : Message) :
    (j.take codec state k m).flushed = j.flushed := by
  unfold take
  cases m.expectsResponse <;> cases codec.encode state m.payload <;> rfl

theorem entered_take (codec : Codec γ) (state : γ) (j : Journal) (k : Nat) (m : Message) :
    j.entered <+: (j.take codec state k m).entered := by
  unfold take
  cases m.expectsResponse <;> cases codec.encode state m.payload <;> simp

@[simp] theorem flushed_cut (decoded : Decoded γ) (j : Journal) : (j.cut decoded).flushed = j.flushed := by
  unfold cut
  split <;> rfl

@[simp] theorem entered_cut (decoded : Decoded γ) (j : Journal) : (j.cut decoded).entered = j.entered := by
  unfold cut
  split <;> rfl

/-- Writes down what an event is about to do to a connection. -/
def record (codec : Codec γ) (c : Connection γ) (j : Journal) : ConnectionEvent → Journal
  | .send m =>
    match c.send m with
    | .ok _ => { j with accepted := j.accepted ++ [m] }
    | .error _ => j
  | .turn =>
    match c.next with
    | .take k m => j.take codec c.codec k m
    | .decode => j.cut (c.decoded codec)
    | _ => j
  | .written n =>
    if c.awaited = .write then { j with wire := j.wire ++ c.outgoing.take n } else j
  | .flushed =>
    match c.awaited, c.writing with
    | .flush, some k => { j with flushed := j.flushed ++ [k] }
    | _, _ => j
  | _ => j

/-- What has entered the sink stays there. -/
theorem entered_record (codec : Codec γ) (c : Connection γ) (j : Journal) (event : ConnectionEvent) :
    j.entered <+: (j.record codec c event).entered := by
  cases event with
  | send m | written n | flushed =>
    unfold record
    simp only
    split <;> exact List.prefix_refl _
  | turn =>
    cases hNext : c.next with
    | take k m => simpa [record, hNext] using entered_take codec c.codec j k m
    | rest | shut | leave | decode => simp [record, hNext]
  | complete | close | cancelParent | dropSender | expire | writeFailed | received | readFailed =>
    exact List.prefix_refl _

end Journal

structure Course (γ : Type) where
  connection : Connection γ
  journal : Journal

namespace Course
variable {γ : Type}

def start (c : Connection γ) : Course γ := ⟨c, .empty⟩

def step (codec : Codec γ) (t : Course γ) (event : ConnectionEvent) : Course γ :=
  ⟨t.connection.step codec event, t.journal.record codec t.connection event⟩

def run (codec : Codec γ) (t : Course γ) (events : List ConnectionEvent) : Course γ :=
  events.foldl (step codec) t

theorem step_send_of_ok (codec : Codec γ) {t : Course γ} {m : Message} {k : Nat} {sent : Connection γ}
    (hSend : t.connection.send m = .ok (k, sent)) :
    t.step codec (.send m) =
      ⟨sent, { t.journal with accepted := t.journal.accepted ++ [m] }⟩ := by
  simp [step, Connection.step, Journal.record, hSend, Except.map, Except.toOption]

theorem step_send_of_error (codec : Codec γ) {t : Course γ} {m : Message} {cause : Error}
    (hSend : t.connection.send m = .error cause) : t.step codec (.send m) = t := by
  simp [step, Connection.step, Journal.record, hSend, Except.map, Except.toOption]

theorem frames_of_frame {codec : Codec γ} {t : Course γ} {payload rest : Bytes} {state : γ}
    (hNext : t.connection.next = .decode)
    (hDecoded : t.connection.decoded codec = .ok (some (payload, rest, state))) :
    (t.step codec .turn).journal.frames = t.journal.frames ++ [payload] := by
  simp [step, Journal.record, Journal.cut, hNext, hDecoded]

/-- Replies are written down when the task cuts them from the bytes read, and only then. -/
theorem frames_step (codec : Codec γ) (t : Course γ) (event : ConnectionEvent) :
    (t.step codec event).journal.frames = t.journal.frames ∨
      ∃ payload rest state, event = .turn ∧ t.connection.next = .decode ∧
        t.connection.decoded codec = .ok (some (payload, rest, state)) := by
  cases event with
  | turn =>
    cases hNext : t.connection.next with
    | take k m =>
      left
      simp [step, Journal.record, hNext]
    | decode =>
      cases hDecoded : t.connection.decoded codec with
      | error cause =>
        left
        simp [step, Journal.record, Journal.cut, hNext, hDecoded]
      | ok found =>
        cases found with
        | none =>
          left
          simp [step, Journal.record, Journal.cut, hNext, hDecoded]
        | some frame =>
          obtain ⟨payload, rest, state⟩ := frame
          exact .inr ⟨payload, rest, state, rfl, rfl, rfl⟩
    | rest | shut | leave =>
      left
      simp [step, Journal.record, hNext]
  | send m =>
    left
    cases hSend : t.connection.send m with
    | error cause => rw [step_send_of_error codec hSend]
    | ok accepted => rw [step_send_of_ok codec hSend]
  | written n =>
    left
    unfold step Journal.record
    simp only
    split <;> rfl
  | flushed =>
    left
    unfold step Journal.record
    simp only
    split <;> rfl
  | complete | close | cancelParent | dropSender | expire | writeFailed | received | readFailed =>
    exact .inl rfl

/-- A message is done with writing when its flush succeeds. -/
theorem mem_flushed_step {codec : Codec γ} {t : Course γ} {event : ConnectionEvent} {k : Nat} :
    k ∈ (t.step codec event).journal.flushed ↔
      k ∈ t.journal.flushed ∨
        event = .flushed ∧ t.connection.awaited = .flush ∧ t.connection.writing = some k := by
  cases event with
  | flushed =>
    unfold step Journal.record
    simp only
    split
    case h_1 i hAwaited hWriting => simp [hAwaited, hWriting, eq_comm]
    case h_2 hOther =>
      have hNever : ¬(t.connection.awaited = .flush ∧ t.connection.writing = some k) :=
        fun hBoth => hOther k hBoth.1 hBoth.2
      simp [hNever]
  | turn => cases hNext : t.connection.next <;> simp [step, Journal.record, hNext]
  | send m | written n =>
    unfold step Journal.record
    simp only
    split <;> simp
  | complete | close | cancelParent | dropSender | expire | writeFailed | received | readFailed =>
    simp [step, Journal.record]

theorem connection_run (codec : Codec γ) (t : Course γ) (events : List ConnectionEvent) :
    (t.run codec events).connection = t.connection.run codec events := by
  induction events generalizing t with
  | nil => rfl
  | cons event events ih => exact ih (t.step codec event)

/-- The messages that a reply is due to, in the order in which their payloads entered the sink. -/
def expectant (t : Course γ) : List Nat := t.journal.entered.filter t.connection.expectsReply

end Course

end Switchyard.Client
