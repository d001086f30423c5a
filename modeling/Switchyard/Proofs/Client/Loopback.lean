import Switchyard.Echo.Session
import Switchyard.Net.Pipe
import Switchyard.Proofs.Client.Thriving

/-! # A client and an echo over bounded buffers

A client talks to an echo session through two pipes. The client reads nothing while it writes, and the
session reads nothing while it has something to write back, so that both may wait for room in a pipe
that only the other one could empty. That is the only way in which they get stuck before every message
has its reply, and it takes more bytes than the pipes and one more at either end can hold.
-/
namespace Switchyard.Net.Pipe
set_option autoImplicit false
variable {p p' : Pipe} {capacity limit n : Nat} {data : Bytes}

/-- A pipe that both ends still use. -/
structure InUse (capacity : Nat) (p : Pipe) : Prop where
  size : p.capacity = capacity
  fits : p.content.length ≤ capacity
  unended : p.ended = false
  attended : p.abandoned = false

theorem inUse_new (capacity : Nat) : (Pipe.new capacity).InUse capacity :=
  ⟨rfl, Nat.zero_le capacity, rfl, rfl⟩

theorem write_of_full (hFull : p.free = 0) (hData : data ≠ []) : p.write data ≠ (.wrote n, p') := by
  intro hWrite
  unfold write at hWrite
  rw [hFull, Nat.min_zero] at hWrite
  split at hWrite
  · cases hWrite
  · simp [hData] at hWrite

theorem write_eq_wrote (h : p.write data = (.wrote n, p')) :
    n ≤ data.length ∧ n ≤ p.free ∧ p' = { p with content := p.content ++ data.take n } := by
  unfold write at h
  split at h
  · cases h
  · dsimp only at h
    split at h
    · cases h
    · cases h
      exact ⟨Nat.min_le_left _ _, Nat.min_le_right _ _, rfl⟩

theorem read_eq_data (h : p.read limit = (.data data, p')) :
    p.content ≠ [] ∧ data = p.content.take limit ∧ p' = { p with content := p.content.drop limit } := by
  unfold read at h
  split at h
  case isTrue hContent =>
    cases h
    exact ⟨by simpa using hContent, rfl, rfl⟩
  case isFalse =>
    split at h <;> cases h

theorem read_of_content (hContent : p.content ≠ []) (limit : Nat) :
    ∃ data p', p.read limit = (.data data, p') := by
  refine ⟨p.content.take limit, { p with content := p.content.drop limit }, ?_⟩
  simp [read, hContent]

namespace InUse

theorem write_of_room (h : p.InUse capacity) (hRoom : p.free ≠ 0) (hData : data ≠ []) :
    ∃ n p', p.write data = (.wrote n, p') := by
  have hLength := List.length_pos_iff.mpr hData
  have hSome : min data.length p.free ≠ 0 := by omega
  refine ⟨min data.length p.free,
    { p with content := p.content ++ data.take (min data.length p.free) }, ?_⟩
  simp [write, h.unended, h.attended, hSome]

theorem wrote (h : p.InUse capacity) (hWrite : p.write data = (.wrote n, p')) :
    p'.InUse capacity := by
  obtain ⟨-, hRoom, rfl⟩ := write_eq_wrote hWrite
  have hFits := h.fits
  have hFree : p.free = capacity - p.content.length := by rw [free, h.size]
  refine ⟨h.size, ?_, h.unended, h.attended⟩
  rw [List.length_append, List.length_take]
  omega

theorem read (h : p.InUse capacity) (hRead : p.read limit = (.data data, p')) :
    p'.InUse capacity := by
  obtain ⟨-, -, rfl⟩ := read_eq_data hRead
  refine ⟨h.size, ?_, h.unended, h.attended⟩
  rw [List.length_drop]
  exact (Nat.sub_le _ _).trans h.fits

theorem length_of_full (h : p.InUse capacity) (hFull : p.free = 0) : p.content.length = capacity := by
  have hFits := h.fits
  rw [free, h.size] at hFull
  omega

theorem content_ne_nil_of_full (h : p.InUse capacity) (hCapacity : 0 < capacity) (hFull : p.free = 0) :
    p.content ≠ [] := by
  have hLength := h.length_of_full hFull
  intro hEmpty
  rw [hEmpty, List.length_nil] at hLength
  omega

end InUse
end Switchyard.Net.Pipe

namespace Switchyard.Client
open Net

/-- `there` has the bytes on their way to the peer, `back` those on their way to the client. -/
structure Loopback where
  client : Connection Echo.Codec
  there : Pipe
  back : Pipe
  peer : Echo.Session

namespace Loopback

/-- What the client is given to send, and what the two parties do by themselves. What is read or
written at a time is at most one byte more than the number says. -/
inductive Act where
  | send (payload : Bytes) (timeout : Duration)
  | turn
  | write (n : Nat)
  | flush
  | read (n : Nat)
  | peerRead (n : Nat)
  | peerWrite (n : Nat)
deriving DecidableEq, Repr

def start (id : ConnectionId) (capacity limit : Nat) : Loopback :=
  { client := .new id false .empty, there := .new capacity, back := .new capacity, peer := .new limit }

def on (l : Loopback) (event : ConnectionEvent) : Loopback :=
  { l with client := l.client.step .echo event }

/-- A client that would look for a reply in vain has done so before it reads. -/
def looked (l : Loopback) : Loopback :=
  match l.client.next, l.client.decoded .echo with
  | .decode, .ok none => l.on .turn
  | _, _ => l

def step (l : Loopback) : Act → Option Loopback
  | .send payload timeout =>
    if payload.isEmpty || timeout.isZero then none else some (l.on (.send (.new payload timeout)))
  | .turn =>
    match l.client.next with
    | .rest => none
    | _ => some (l.on .turn)
  | .write n =>
    if l.client.awaited = .write then
      match l.there.write (l.client.outgoing.take (n + 1)) with
      | (.wrote count, there) => some ({ l with there }.on (.written count))
      | _ => none
    else none
  | .flush => if l.client.awaited = .flush then some (l.on .flushed) else none
  | .read n =>
    if l.looked.client.awaited = .read then
      match l.back.read (n + 1) with
      | (.data data, back) => some ({ l.looked with back }.on (.received data))
      | _ => none
    else none
  | .peerRead n =>
    if l.peer.isReading then
      match l.there.read (min (n + 1) l.peer.limit) with
      | (.data data, there) => some { l with there, peer := l.peer.received data }
      | _ => none
    else none
  | .peerWrite n =>
    if l.peer.left.isEmpty then none
    else
      match l.back.write (l.peer.left.take (n + 1)) with
      | (.wrote count, back) => some { l with back, peer := l.peer.written count }
      | _ => none

def run (l : Loopback) (acts : List Act) : Option Loopback := acts.foldlM step l

/-- Whether something is read, written or decoded. A message is taken up to be written, and a flush ends
a write; looking for a reply in vain is nothing by itself. -/
def Works (l : Loopback) : Act → Prop
  | .send .. => False
  | .turn =>
    (∃ k m, l.client.next = .take k m) ∨
      l.client.next = .decode ∧ ∃ reply, l.client.decoded .echo = .ok (some reply)
  | .write _ | .flush | .read _ | .peerRead _ | .peerWrite _ => True

def CanStep (l : Loopback) : Prop := ∃ act, l.Works act ∧ (l.step act).isSome = true

/-- Both parties want to write, and there is no room for either. -/
structure Stalled (l : Loopback) : Prop where
  client : l.client.awaited = .write
  there : l.there.free = 0
  back : l.back.free = 0
  peer : l.peer.left ≠ []

instance (l : Loopback) : Decidable l.Stalled :=
  decidable_of_iff (l.client.awaited = .write ∧ l.there.free = 0 ∧ l.back.free = 0 ∧ l.peer.left ≠ [])
    ⟨fun ⟨hClient, hThere, hBack, hPeer⟩ => ⟨hClient, hThere, hBack, hPeer⟩,
      fun ⟨hClient, hThere, hBack, hPeer⟩ => ⟨hClient, hThere, hBack, hPeer⟩⟩

namespace Stalled
variable {l : Loopback}

theorem next_eq_rest (h : l.Stalled) : l.client.next = .rest := by
  obtain ⟨hOpen, hActive, hWriting⟩ := h.client ▸ l.client.allowed_awaited
  simp [Connection.next, Connection.hasEnded, hOpen, hActive, hWriting]

theorem outgoing_ne_nil (h : l.Stalled) : l.client.outgoing ≠ [] := by
  intro hNothing
  have hAwaited := h.client
  unfold Connection.awaited at hAwaited
  rw [hNothing] at hAwaited
  split at hAwaited
  · cases hAwaited
  · split at hAwaited
    · cases hAwaited
    · split at hAwaited <;> cases hAwaited

theorem step_eq_none (h : l.Stalled) {act : Act} (hWorks : l.Works act) : l.step act = none := by
  have hLooked : l.looked = l := by simp [looked, h.next_eq_rest]
  cases act with
  | send payload timeout => exact hWorks.elim
  | turn => simp [step, h.next_eq_rest]
  | write n =>
    have hData : l.client.outgoing.take (n + 1) ≠ [] := by simp [h.outgoing_ne_nil]
    simp only [step, h.client, if_true]
    split
    case h_1 hWrite => exact absurd hWrite (Pipe.write_of_full h.there hData)
    case h_2 => rfl
  | flush => simp [step, h.client]
  | read n => simp [step, hLooked, h.client]
  | peerRead n => simp [step, Echo.Session.isReading, h.peer]
  | peerWrite n =>
    have hData : l.peer.left.take (n + 1) ≠ [] := by simp [h.peer]
    simp only [step, List.isEmpty_eq_false_iff.mpr h.peer, Bool.false_eq_true, if_false]
    split
    case h_1 hWrite => exact absurd hWrite (Pipe.write_of_full h.back hData)
    case h_2 => rfl

theorem not_canStep (h : l.Stalled) : ¬l.CanStep := by
  rintro ⟨act, hWorks, hStep⟩
  rw [h.step_eq_none hWorks] at hStep
  cases hStep

end Stalled

/-- The client of a loopback is in a dialogue with an echo. What the transport has taken of it has come
back or is on its way. -/
structure Follows (capacity : Nat) (l : Loopback) (d : Dialogue) (due : List Bytes) : Prop where
  client : l.client = d.course.connection
  inEcho : InEcho d due
  thrives : d.course.connection.Thrives
  filled : ∀ (k : Nat) (m : Message), d.course.connection.messages[k]? = some m → m.payload ≠ []
  attends : d.course.connection.Attends
  carried : d.returned ++ (l.back.content ++ (l.peer.left ++ l.there.content)) = d.course.journal.wire
  there : l.there.InUse capacity
  back : l.back.InUse capacity
  serving : l.peer.ended = false
  limit : 0 < l.peer.limit

namespace Follows
variable {capacity : Nat} {l : Loopback} {d : Dialogue} {due : List Bytes} {there back : Pipe}

theorem start (id : ConnectionId) {capacity limit : Nat} (hLimit : 0 < limit) :
    Follows capacity (.start id capacity limit) (.start id false) [] where
  client := rfl
  inEcho := .start id false
  thrives := .new id
  filled := nofun
  attends := Connection.attends_new id false _
  carried := rfl
  there := Pipe.inUse_new capacity
  back := Pipe.inUse_new capacity
  serving := rfl
  limit := hLimit

theorem on (h : Follows capacity l d due) {event : ConnectionEvent} (hPermits : d.Permits event)
    (hSent : ∀ m, event = .send m → m.payload ≠ [])
    (hThrives : (d.course.connection.step .echo event).Thrives) (hThere : there.InUse capacity)
    (hBack : back.InUse capacity)
    (hCarried : (d.step event).returned ++ (back.content ++ (l.peer.left ++ there.content)) =
      (d.step event).course.journal.wire) :
    ∃ due', Follows capacity ({ l with there, back }.on event) (d.step event) due' := by
  obtain ⟨due', hEcho⟩ := h.inEcho.step hPermits
  refine ⟨due', ?_, hEcho, hThrives, ?_, ?_, hCarried, hThere, hBack, h.serving, h.limit⟩
  · exact congrArg (·.step .echo event) h.client
  · intro k m'
    exact InEcho.filled_step h.filled hSent
  · exact h.attends.step event

theorem send (h : Follows capacity l d due) {payload : Bytes} {timeout : Duration}
    (hPayload : payload ≠ []) (hTimeout : timeout.isZero = false) :
    ∃ d' due', Follows capacity (l.on (.send (.new payload timeout))) d' due' := by
  have hReply : (Message.new payload timeout).expectsResponse = true := by
    simp [Message.expectsResponse, Message.new, hTimeout]
  have hCarried := d.wire_step (.send (.new payload timeout)) nofun
  refine ⟨_, h.on ⟨hReply, nofun⟩ ?_ (h.thrives.send _) h.there h.back ?_⟩
  · rintro m ⟨⟩
    exact hPayload
  · exact h.carried.trans hCarried.symm

theorem turn (h : Follows capacity l d due) : ∃ d' due', Follows capacity (l.on .turn) d' due' := by
  have hCarried := d.wire_step .turn nofun
  refine ⟨_, h.on trivial nofun ?_ h.there h.back ?_⟩
  · exact h.inEcho.thrives_turn h.thrives h.filled
  · exact h.carried.trans hCarried.symm

theorem flushed (h : Follows capacity l d due) : ∃ d' due', Follows capacity (l.on .flushed) d' due' := by
  have hCarried := d.wire_step .flushed nofun
  exact ⟨_, h.on trivial nofun h.thrives.flushed h.there h.back (h.carried.trans hCarried.symm)⟩

theorem written (h : Follows capacity l d due) {n count : Nat} (hAwaited : l.client.awaited = .write)
    (hWrite : l.there.write (l.client.outgoing.take n) = (.wrote count, there)) :
    ∃ d' due', Follows capacity ({ l with there }.on (.written count)) d' due' := by
  rw [h.client] at hAwaited hWrite
  have hWire : (d.step (.written count)).course.journal.wire =
      d.course.journal.wire ++ d.course.connection.outgoing.take count := by
    simp [Dialogue.step, Course.step, Journal.record, hAwaited]
  have hNoSend (m : Message) : ConnectionEvent.written count ≠ .send m := by simp
  refine ⟨_, h.on trivial (fun m hSend => (hNoSend m hSend).elim) (h.thrives.written count)
    (h.there.wrote hWrite) h.back ?_⟩
  obtain ⟨hCount, -, rfl⟩ := Pipe.write_eq_wrote hWrite
  rw [List.length_take] at hCount
  rw [hWire, ← h.carried, List.take_take, Nat.min_eq_left (by omega)]
  simp [Dialogue.step]

theorem received (h : Follows capacity l d due) {n : Nat} {data : Bytes}
    (hAwaited : l.client.awaited = .read) (hRead : l.back.read (n + 1) = (.data data, back)) :
    ∃ d' due', Follows capacity ({ l with back }.on (.received data)) d' due' := by
  rw [h.client] at hAwaited
  have hBack := h.back.read hRead
  obtain ⟨hContent, hData, rfl⟩ := Pipe.read_eq_data hRead
  have hReturned : (d.step (.received data)).returned = d.returned ++ data := if_pos hAwaited
  have hCarried : d.returned ++ data ++
      (l.back.content.drop (n + 1) ++ (l.peer.left ++ l.there.content)) = d.course.journal.wire := by
    rw [← h.carried, hData, List.append_assoc, ← List.append_assoc (l.back.content.take _),
      List.take_append_drop]
  have hPermits : d.Permits (.received data) := by
    intro _
    rw [← hCarried]
    exact List.prefix_append _ _
  have hNonempty : data ≠ [] := by
    rw [hData]
    simp [hContent]
  refine ⟨_, h.on hPermits nofun (h.thrives.received hNonempty) h.there hBack ?_⟩
  rw [hReturned]
  exact hCarried

theorem looked (h : Follows capacity l d due) : ∃ d' due', Follows capacity l.looked d' due' := by
  unfold Loopback.looked
  split
  · exact h.turn
  · exact ⟨d, due, h⟩

theorem peerRead (h : Follows capacity l d due) {n : Nat} {data : Bytes} (hReading : l.peer.isReading = true)
    (hRead : l.there.read (min (n + 1) l.peer.limit) = (.data data, there)) :
    Follows capacity { l with there, peer := l.peer.received data } d due := by
  have hThere := h.there.read hRead
  obtain ⟨hContent, hData, rfl⟩ := Pipe.read_eq_data hRead
  have hLimit := h.limit
  have hLeft : l.peer.left = [] := by
    simpa [Echo.Session.isReading, h.serving] using hReading
  have hNonempty : data ≠ [] := by
    rw [hData]
    simp [hContent]
    omega
  have hLength : data.length ≤ l.peer.limit := by
    rw [hData, List.length_take]
    omega
  have hPeer : l.peer.received data = { l.peer with left := data } := by
    simp [Echo.Session.received, hReading, hNonempty, List.take_of_length_le hLength]
  rw [hPeer]
  refine ⟨h.client, h.inEcho, h.thrives, h.filled, h.attends, ?_, hThere, h.back, h.serving, h.limit⟩
  rw [← h.carried, hLeft, hData, List.take_append_drop, List.nil_append]

theorem peerWrite (h : Follows capacity l d due) {n count : Nat}
    (hWrite : l.back.write (l.peer.left.take n) = (.wrote count, back)) :
    Follows capacity { l with back, peer := l.peer.written count } d due := by
  have hBack := h.back.wrote hWrite
  obtain ⟨hCount, -, rfl⟩ := Pipe.write_eq_wrote hWrite
  rw [List.length_take] at hCount
  have hPeer : l.peer.written count = { l.peer with left := l.peer.left.drop count } := by
    simp [Echo.Session.written, h.serving]
  rw [hPeer]
  refine ⟨h.client, h.inEcho, h.thrives, h.filled, h.attends, ?_, h.there, hBack, h.serving, h.limit⟩
  rw [← h.carried, List.take_take, Nat.min_eq_left (by omega), List.append_assoc l.back.content,
    ← List.append_assoc (l.peer.left.take count), List.take_append_drop]

theorem step (h : Follows capacity l d due) {act : Act} {l' : Loopback} (hStep : l.step act = some l') :
    ∃ d' due', Follows capacity l' d' due' := by
  unfold Loopback.step at hStep
  cases act with
  | send payload timeout =>
    simp only [Option.ite_none_left_eq_some, Bool.or_eq_true, not_or,
      Bool.not_eq_true, List.isEmpty_eq_false_iff, Option.some.injEq] at hStep
    obtain ⟨⟨hPayload, hTimeout⟩, rfl⟩ := hStep
    exact h.send hPayload hTimeout
  | turn =>
    dsimp only at hStep
    split at hStep
    · cases hStep
    · cases hStep
      exact h.turn
  | write n =>
    dsimp only at hStep
    split at hStep
    case isFalse => cases hStep
    case isTrue hAwaited =>
      split at hStep
      case h_2 => cases hStep
      case h_1 hWrite =>
        cases hStep
        exact h.written hAwaited hWrite
  | flush =>
    dsimp only at hStep
    split at hStep
    · cases hStep
      exact h.flushed
    · cases hStep
  | read n =>
    dsimp only at hStep
    split at hStep
    case isFalse => cases hStep
    case isTrue hAwaited =>
      split at hStep
      case h_2 => cases hStep
      case h_1 hRead =>
        cases hStep
        obtain ⟨d', due', hLooked⟩ := h.looked
        have hBack : l.looked.back = l.back := by
          unfold Loopback.looked
          split <;> rfl
        exact hLooked.received hAwaited (hBack ▸ hRead)
  | peerRead n =>
    dsimp only at hStep
    split at hStep
    case isFalse => cases hStep
    case isTrue hReading =>
      split at hStep
      case h_2 => cases hStep
      case h_1 hRead =>
        cases hStep
        exact ⟨d, due, h.peerRead hReading hRead⟩
  | peerWrite n =>
    dsimp only at hStep
    split at hStep
    case isTrue => cases hStep
    case isFalse =>
      split at hStep
      case h_2 => cases hStep
      case h_1 hWrite =>
        cases hStep
        exact ⟨d, due, h.peerWrite hWrite⟩

theorem run (h : Follows capacity l d due) {acts : List Act} {l' : Loopback}
    (hRun : l.run acts = some l') : ∃ d' due', Follows capacity l' d' due' := by
  induction acts generalizing l d due with
  | nil =>
    cases hRun
    exact ⟨d, due, h⟩
  | cons act acts ih =>
    obtain ⟨next, hStep, hRest⟩ := Option.bind_eq_some_iff.mp hRun
    obtain ⟨d', due', hNext⟩ := h.step hStep
    exact ih hNext hRest

/-! Who can go on. -/

/-- Every byte whose reply is due is somewhere on its way. -/
theorem flatten_due (h : Follows capacity l d due) :
    l.client.incoming ++ (l.back.content ++ (l.peer.left ++ (l.there.content ++ l.client.outgoing))) =
      due.flatten := by
  have hWire := h.inEcho.inStep.wire
  have hArrived : d.course.journal.frames.flatten ++ d.course.connection.incoming = d.returned :=
    h.inEcho.owes.arrived
  rw [← h.carried, ← hArrived, h.inEcho.encoded_eq_append, List.flatten_append, ← h.client] at hWire
  simpa only [List.append_assoc, List.append_cancel_left_eq] using hWire

theorem canStep_of_peer (h : Follows capacity l d due)
    (hContent : l.peer.left = [] → l.there.content ≠ [])
    (hRoom : l.peer.left ≠ [] → l.back.free ≠ 0) : l.CanStep := by
  by_cases hLeft : l.peer.left = []
  · have hReading : l.peer.isReading = true := by simp [Echo.Session.isReading, h.serving, hLeft]
    obtain ⟨data, there, hRead⟩ :=
      Pipe.read_of_content (hContent hLeft) (min (0 + 1) l.peer.limit)
    refine ⟨.peerRead 0, trivial, ?_⟩
    simp only [Loopback.step, hReading, if_true, hRead, Option.isSome_some]
  · have hData : l.peer.left.take (0 + 1) ≠ [] := by simp [hLeft]
    obtain ⟨count, back, hWrite⟩ := h.back.write_of_room (hRoom hLeft) hData
    refine ⟨.peerWrite 0, trivial, ?_⟩
    simp only [Loopback.step, List.isEmpty_eq_false_iff.mpr hLeft, Bool.false_eq_true, if_false, hWrite,
      Option.isSome_some]

theorem canStep_of_writing (h : Follows capacity l d due) (hCapacity : 0 < capacity) (hRoom : ¬l.Stalled)
    {k : Nat} (hWriting : l.client.writing = some k) : l.CanStep := by
  have hAwaited : l.client.awaited = if l.client.outgoing.isEmpty then .flush else .write := by
    rw [h.client] at hWriting ⊢
    exact h.thrives.awaited_of_writing hWriting
  by_cases hOutgoing : l.client.outgoing = []
  · rw [hOutgoing] at hAwaited
    refine ⟨.flush, trivial, ?_⟩
    simp [Loopback.step, hAwaited]
  · rw [List.isEmpty_eq_false_iff.mpr hOutgoing] at hAwaited
    by_cases hThere : l.there.free = 0
    · apply h.canStep_of_peer
      · intro _
        exact h.there.content_ne_nil_of_full hCapacity hThere
      · intro hLeft hBack
        exact hRoom ⟨hAwaited, hThere, hBack, hLeft⟩
    · have hData : l.client.outgoing.take (0 + 1) ≠ [] := by simp [hOutgoing]
      obtain ⟨count, there, hWrite⟩ := h.there.write_of_room hThere hData
      refine ⟨.write 0, trivial, ?_⟩
      simp only [Loopback.step, hAwaited, Bool.false_eq_true, if_true, if_false, hWrite, Option.isSome_some]

theorem canStep_of_queued (h : Follows capacity l d due) (hWriting : l.client.writing = none)
    {k : Nat} {others : List Nat} (hQueued : l.client.queued = k :: others) : l.CanStep := by
  rw [h.client] at hWriting hQueued
  have hPlace : k ∈ d.course.journal.entered ++ d.course.connection.queued := by simp [hQueued]
  rw [h.inEcho.inStep.waiting h.thrives.unended, List.mem_range, ← h.inEcho.inStep.length_messages]
    at hPlace
  obtain ⟨m, hMessage⟩ : ∃ m, d.course.connection.messages[k]? = some m :=
    ⟨_, List.getElem?_eq_getElem hPlace⟩
  have hNext := h.thrives.next_of_queued hWriting hQueued hMessage
  rw [← h.client] at hNext
  refine ⟨.turn, .inl ⟨k, m, hNext⟩, ?_⟩
  simp only [Loopback.step, hNext, Option.isSome_some]

theorem client_looked (h : Follows capacity l d due) (hWriting : l.client.writing = none)
    (hQueued : l.client.queued = []) (hDecoded : l.client.decoded .echo = .ok none) :
    l.looked.client = { l.client with readable := false } := by
  have hThrives : l.client.Thrives := h.client ▸ h.thrives
  unfold Loopback.looked
  cases hReadable : l.client.readable with
  | true =>
    have hNext := hThrives.next_of_readable hWriting hQueued hReadable
    simp [hNext, hDecoded, Loopback.on, Connection.step, Connection.turn, Connection.decode, hThrives.fed]
  | false =>
    split
    case h_1 hNext _ =>
      rw [Connection.readable_of_decode hNext] at hReadable
      cases hReadable
    case h_2 => rw [← hReadable]

theorem canStep_of_reply (h : Follows capacity l d due) (hWriting : l.client.writing = none)
    (hQueued : l.client.queued = []) (hReply : ∃ reply, l.client.decoded .echo = .ok (some reply))
    (hWhole : ¬l.client.Lacks) : l.CanStep := by
  have hThrives : l.client.Thrives := h.client ▸ h.thrives
  have hReadable : l.client.readable = true := by
    by_contra hSearched
    exact hWhole (hThrives.searched (Bool.eq_false_iff.mpr hSearched))
  have hNext := hThrives.next_of_readable hWriting hQueued hReadable
  refine ⟨.turn, .inr ⟨hNext, hReply⟩, ?_⟩
  simp only [Loopback.step, hNext, Option.isSome_some]

theorem canStep_of_arrived (h : Follows capacity l d due) (hWriting : l.client.writing = none)
    (hQueued : l.client.queued = []) (hNone : l.client.decoded .echo = .ok none)
    (hLacks : l.client.Lacks) (hBack : l.back.content ≠ []) : l.CanStep := by
  have hThrives : l.client.Thrives := h.client ▸ h.thrives
  have hLooked : Connection.Thrives { l.client with readable := false } :=
    ⟨hThrives.unended, hThrives.active, hThrives.attached, hThrives.fed, fun _ => hLacks⟩
  have hAwaited : l.looked.client.awaited = .read := by
    rw [h.client_looked hWriting hQueued hNone]
    exact hLooked.awaited_of_searched hWriting hQueued rfl
  obtain ⟨data, back, hRead⟩ := Pipe.read_of_content hBack (0 + 1)
  refine ⟨.read 0, trivial, ?_⟩
  simp only [Loopback.step, hAwaited, if_true, hRead, Option.isSome_some]

/-- If all bytes had come back, the next reply would be there as a whole. -/
theorem not_all_back (h : Follows capacity l d due) (hWriting : l.client.writing = none)
    (hLacks : l.client.Lacks) (hDue : due ≠ []) (hBack : l.back.content = [])
    (hLeft : l.peer.left = []) : l.there.content ≠ [] := by
  intro hThere
  obtain ⟨payload, later, rfl⟩ := List.exists_cons_of_ne_nil hDue
  have hIdle : l.client.outgoing = [] := by
    rw [h.client] at hWriting ⊢
    exact h.inEcho.inStep.idle h.thrives.unended hWriting
  have hArrived := congrArg List.length h.flatten_due
  have hShort : l.client.incoming.length < payload.length := by
    apply hLacks
    rw [h.client, h.inEcho.head?_expected]
    rfl
  simp [hBack, hLeft, hThere, hIdle] at hArrived
  omega

theorem canStep_of_pending (h : Follows capacity l d due) (hCapacity : 0 < capacity)
    (hWriting : l.client.writing = none) (hQueued : l.client.queued = []) (hDue : due ≠ []) :
    l.CanStep := by
  have hFound := h.inEcho.decoded_or_lacks h.thrives.fed
  rw [← h.client] at hFound
  rcases hFound with ⟨hReply, hWhole⟩ | ⟨hNone, hLacks⟩
  · exact h.canStep_of_reply hWriting hQueued hReply hWhole
  · by_cases hBack : l.back.content = []
    · apply h.canStep_of_peer
      · exact h.not_all_back hWriting hLacks hDue hBack
      · intro _ hFull
        exact h.back.content_ne_nil_of_full hCapacity hFull hBack
    · exact h.canStep_of_arrived hWriting hQueued hNone hLacks hBack

theorem canStep (h : Follows capacity l d due) (hCapacity : 0 < capacity) (hRoom : ¬l.Stalled) {k : Nat}
    {m : Message} (hMessage : l.client.messages[k]? = some m) (hNone : m.outcome = none) :
    l.CanStep := by
  rw [h.client] at hMessage
  obtain ⟨-, hWaits⟩ := h.attends k m hMessage hNone
  have hReply := h.inEcho.expecting k m hMessage
  unfold Connection.Waits at hWaits
  rw [← h.client, hReply] at hWaits
  cases hWriting : l.client.writing with
  | some i => exact h.canStep_of_writing hCapacity hRoom hWriting
  | none =>
    cases hQueued : l.client.queued with
    | cons i others => exact h.canStep_of_queued hWriting hQueued
    | nil =>
      have hPending : k ∈ l.client.pending := by simpa [hQueued] using hWaits
      apply h.canStep_of_pending hCapacity hWriting hQueued
      intro hNothing
      have hLength := h.inEcho.length_pending h.thrives.unended
      rw [← h.client, hNothing] at hLength
      exact List.ne_nil_of_mem hPending (List.length_eq_zero_iff.mp hLength)

theorem length_due_of_stalled (h : Follows capacity l d due) (hStalled : l.Stalled) :
    2 * capacity + 2 ≤ l.client.duePayloads.flatten.length := by
  have hThere := h.there.length_of_full hStalled.there
  have hBack := h.back.length_of_full hStalled.back
  have hLeft := List.length_pos_iff.mpr hStalled.peer
  have hOutgoing := List.length_pos_iff.mpr hStalled.outgoing_ne_nil
  have hTotal := congrArg List.length h.flatten_due
  rw [h.inEcho.due_eq h.thrives.unended, ← h.client] at hTotal
  simp only [List.length_append] at hTotal
  omega

end Follows

/-- Payloads that are not empty are sent, each with a time for its reply, and nothing fails or ends. As
long as some message has no outcome, one of the two parties can go on, unless the client is writing, the
peer has something to write back, and both pipes are full. For that the payloads whose reply is due need
two bytes more than fit into the pipes. -/
theorem canStep_iff_not_stalled (id : ConnectionId) {capacity limit : Nat} (hCapacity : 0 < capacity)
    (hLimit : 0 < limit) {acts : List Act} {l : Loopback}
    (hRun : (start id capacity limit).run acts = some l) {k : Nat} {m : Message}
    (hMessage : l.client.messages[k]? = some m) (hNone : m.outcome = none) :
    (l.CanStep ↔ ¬l.Stalled) ∧
      (l.Stalled → 2 * capacity + 2 ≤ l.client.duePayloads.flatten.length) := by
  obtain ⟨d, due, h⟩ := (Follows.start id hLimit).run hRun
  refine ⟨⟨?_, ?_⟩, ?_⟩
  · intro hCan hStalled
    exact hStalled.not_canStep hCan
  · intro hRoom
    exact h.canStep hCapacity hRoom hMessage hNone
  · exact h.length_due_of_stalled

/-- Two payloads of five bytes, pipes of four. The peer has taken the last byte of the first payload when
the first four are still on their way back, and the client has one byte left to write. -/
def twoPayloads : List Act :=
  [.send [97, 98, 99, 100, 101] ⟨1000000000⟩, .send [102, 103, 104, 105, 106] ⟨1000000000⟩,
    .turn, .write 3, .peerRead 3, .peerWrite 3, .write 0, .flush,
    .turn, .write 2, .peerRead 0, .write 0]

theorem canStep_iff_not_stalled_onePayload :
    ∃ l, (start ⟨1⟩ 4 8).run (twoPayloads.take 8) = some l ∧ l.CanStep := by
  have hReached : ((start ⟨1⟩ 4 8).run (twoPayloads.take 8)).map (fun l =>
      (decide l.Stalled, (l.client.messages[0]?).map (·.outcome))) = some (false, some none) := by
    decide +kernel
  obtain ⟨l, hRun, hFacts⟩ := Option.map_eq_some_iff.mp hReached
  obtain ⟨hRoom, hOutcome⟩ := Prod.mk.inj hFacts
  obtain ⟨m, hMessage, hNone⟩ := Option.map_eq_some_iff.mp hOutcome
  have hGoes := canStep_iff_not_stalled ⟨1⟩ (by decide) (by decide) hRun hMessage hNone
  exact ⟨l, hRun, hGoes.1.mpr (of_decide_eq_false hRoom)⟩

theorem not_forall_canStep :
    ¬∀ (id : ConnectionId) (capacity limit : Nat), 0 < capacity → 0 < limit →
      ∀ (acts : List Act) (l : Loopback), (start id capacity limit).run acts = some l →
        ∀ (k : Nat) (m : Message), l.client.messages[k]? = some m → m.outcome = none → l.CanStep := by
  intro hAlways
  have hReached : ((start ⟨1⟩ 4 8).run twoPayloads).map (fun l =>
      (decide l.Stalled, (l.client.messages[0]?).map (·.outcome))) = some (true, some none) := by
    decide +kernel
  obtain ⟨l, hRun, hFacts⟩ := Option.map_eq_some_iff.mp hReached
  obtain ⟨hStalled, hOutcome⟩ := Prod.mk.inj hFacts
  obtain ⟨m, hMessage, hNone⟩ := Option.map_eq_some_iff.mp hOutcome
  apply (of_decide_eq_true hStalled).not_canStep
  exact hAlways ⟨1⟩ 4 8 (by decide) (by decide) twoPayloads l hRun 0 m hMessage hNone

end Loopback
end Switchyard.Client
