import Switchyard.Echo.Buffers
import Switchyard.Proofs.Echo.Framing

/-! # What a codec makes of its calls

A transcript has what the calls on a codec and its buffers have brought: the payloads accepted, the
bytes that have come, and the replies cut from them. The lengths of the payloads without a reply are
all that the codec keeps, so the replies are as long as the payloads and follow one another without a
gap, whatever has come. If it is the beginning of what was written, they are the payloads.
-/
namespace Switchyard.Echo
set_option autoImplicit false

namespace Codec
variable {payload buffer : Bytes} {due : List Bytes}

@[simp] theorem pending_awaiting (due : List Bytes) : (awaiting due).pending = due.length :=
  List.length_map _

theorem decode_nil (buffer : Bytes) : (awaiting []).decode buffer =
    if buffer = [] then .ok none else .error (.unexpectedBytes buffer.length) := by
  simp [decode, awaiting]

theorem decode_cons (payload : Bytes) (later : List Bytes) (buffer : Bytes) :
    (awaiting (payload :: later)).decode buffer = if payload.length ≤ buffer.length then
      .ok (some (buffer.take payload.length, buffer.drop payload.length, awaiting later))
      else .ok none := rfl

theorem decode_eq_some_iff {frame rest : Bytes} {after : Codec} :
    (awaiting due).decode buffer = .ok (some (frame, rest, after)) ↔
      ∃ payload later, due = payload :: later ∧ payload.length ≤ buffer.length ∧
        frame = buffer.take payload.length ∧ rest = buffer.drop payload.length ∧
          after = awaiting later := by
  cases due with
  | nil =>
    rw [decode_nil]
    split <;> simp
  | cons payload later =>
    rw [decode_cons]
    by_cases hWhole : payload.length ≤ buffer.length <;> simp [hWhole, eq_comm]

theorem decode_eq_error_iff {cause : CodecError} :
    (awaiting due).decode buffer = .error cause ↔
      due = [] ∧ buffer ≠ [] ∧ cause = .unexpectedBytes buffer.length := by
  cases due with
  | nil =>
    rw [decode_nil]
    split <;> simp_all [eq_comm]
  | cons payload later =>
    rw [decode_cons]
    split <;> simp

theorem decodeEnd_eq_some_iff {c : Codec} {reply : Bytes × Bytes × Codec} :
    c.decodeEnd buffer = .ok (some reply) ↔ c.decode buffer = .ok (some reply) := by
  rw [decodeEnd_eq]
  split
  · rename_i hNothing
    rw [hNothing]
    split <;> simp
  · rfl

end Codec

def Call.payloads : Call → List Bytes
  | .encode payload => [payload]
  | _ => []

def Call.bytes : Call → Bytes
  | .feed bytes => bytes
  | _ => []

structure Transcript where
  buffers : Buffers
  accepted : List Bytes
  fed : Bytes
  frames : List Bytes

namespace Transcript

def start : Transcript := { buffers := .empty, accepted := [], fed := [], frames := [] }

def step (t : Transcript) (call : Call) : Transcript :=
  match t.buffers.call call with
  | (.error _, buffers) => { t with buffers }
  | (.ok frame, buffers) =>
    { buffers
      accepted := t.accepted ++ call.payloads
      fed := t.fed ++ call.bytes
      frames := t.frames ++ frame.toList }

def run (t : Transcript) (calls : List Call) : Transcript := calls.foldl step t

/-- The replies that are `due` are those to the last payloads, and the others are as long as the
payloads they answer. -/
structure Balanced (t : Transcript) (answered due : List Bytes) : Prop where
  owed : t.buffers.codec = .awaiting due
  accepted_eq : t.accepted = answered ++ due
  lengths_eq : t.frames.map List.length = answered.map List.length
  cut : t.frames.flatten ++ t.buffers.unread = t.fed
  written : t.buffers.wire = t.accepted.flatten

namespace Balanced
variable {t : Transcript} {answered due : List Bytes}

theorem start : Balanced .start [] [] where
  owed := rfl
  accepted_eq := rfl
  lengths_eq := rfl
  cut := rfl
  written := rfl

theorem encode (h : Balanced t answered due) (payload : Bytes) :
    ∃ due, Balanced (t.step (.encode payload)) answered due := by
  cases hEncode : t.buffers.codec.encode payload with
  | error cause =>
    have hStep : t.step (.encode payload) = t := by simp [step, Buffers.call, hEncode]
    exact ⟨due, by rwa [hStep]⟩
  | ok result =>
    obtain ⟨bytes, codec⟩ := result
    obtain ⟨rfl, rfl⟩ := Codec.encode_eq_ok hEncode
    refine ⟨due ++ [bytes], ?_⟩
    simp only [step, Buffers.call, hEncode]
    constructor
    · simp [h.owed, Codec.awaiting]
    · simp [h.accepted_eq, Call.payloads]
    · simpa using h.lengths_eq
    · simpa [Call.bytes] using h.cut
    · simp [h.written, Call.payloads]

theorem feed (h : Balanced t answered due) (bytes : Bytes) :
    Balanced (t.step (.feed bytes)) answered due where
  owed := h.owed
  accepted_eq := by simpa [step, Buffers.call, Call.payloads] using h.accepted_eq
  lengths_eq := by simpa [step, Buffers.call] using h.lengths_eq
  cut := by simp [step, Buffers.call, Call.bytes, ← h.cut]
  written := by simpa [step, Buffers.call, Call.payloads] using h.written

/-- The next reply is cut. -/
theorem reply {payload : Bytes} {later : List Bytes} (h : Balanced t answered (payload :: later))
    (hWhole : payload.length ≤ t.buffers.unread.length) :
    Balanced
      { t with
        buffers := { t.buffers with
          codec := .awaiting later, unread := t.buffers.unread.drop payload.length }
        frames := t.frames ++ [t.buffers.unread.take payload.length] }
      (answered ++ [payload]) later where
  owed := rfl
  accepted_eq := by simp [h.accepted_eq]
  lengths_eq := by simp [h.lengths_eq, hWhole]
  cut := by simp [← h.cut]
  written := h.written

theorem found (h : Balanced t answered due) {call : Call}
    {decoded : Except CodecError (Option (Bytes × Bytes × Codec))}
    (hCall : t.buffers.call call = t.buffers.found decoded) (hPayloads : call.payloads = [])
    (hBytes : call.bytes = []) (hDecoded : ∀ reply, decoded = .ok (some reply) →
      (Codec.awaiting due).decode t.buffers.unread = .ok (some reply)) :
    ∃ answered due, Balanced (t.step call) answered due := by
  match decoded, hDecoded with
  | .error cause, _ =>
    have hStep : t.step call = t := by simp [step, hCall, Buffers.found]
    exact ⟨answered, due, by rwa [hStep]⟩
  | .ok none, _ =>
    have hStep : t.step call = t := by simp [step, hCall, Buffers.found, hPayloads, hBytes]
    exact ⟨answered, due, by rwa [hStep]⟩
  | .ok (some (frame, rest, codec)), hDecoded =>
    obtain ⟨payload, later, rfl, hWhole, rfl, rfl, rfl⟩ :=
      Codec.decode_eq_some_iff.mp (hDecoded _ rfl)
    refine ⟨answered ++ [payload], later, ?_⟩
    simpa [step, hCall, Buffers.found, hPayloads, hBytes] using h.reply hWhole

theorem step (h : Balanced t answered due) (call : Call) :
    ∃ answered due, Balanced (t.step call) answered due := by
  cases call with
  | encode payload => exact ⟨answered, h.encode payload⟩
  | feed bytes => exact ⟨answered, due, h.feed bytes⟩
  | decode => exact h.found rfl rfl rfl fun reply hReply => h.owed ▸ hReply
  | decodeEnd =>
    exact h.found rfl rfl rfl fun reply hReply => h.owed ▸ Codec.decodeEnd_eq_some_iff.mp hReply

theorem run (h : Balanced t answered due) (calls : List Call) :
    ∃ answered due, Balanced (t.run calls) answered due := by
  induction calls generalizing t answered due with
  | nil => exact ⟨answered, due, h⟩
  | cons call calls ih =>
    obtain ⟨answered, due, hNext⟩ := h.step call
    exact ih hNext

theorem length_frames (h : Balanced t answered due) : t.frames.length = answered.length := by
  simpa using congrArg List.length h.lengths_eq

theorem pending_eq (h : Balanced t answered due) :
    t.buffers.codec.pending + t.frames.length = t.accepted.length := by
  rw [h.owed, Codec.pending_awaiting, h.length_frames, h.accepted_eq, List.length_append, Nat.add_comm]

/-- The payload whose reply is the next one. -/
theorem getElem?_accepted (h : Balanced t answered due) : t.accepted[t.frames.length]? = due.head? := by
  rw [h.accepted_eq, h.length_frames, List.getElem?_append_right (Nat.le_refl _), Nat.sub_self,
    List.head?_eq_getElem?]

theorem length_frame (h : Balanced t answered due) {i : Nat} {frame : Bytes}
    (hFrame : t.frames[i]? = some frame) :
    ∃ payload, t.accepted[i]? = some payload ∧ frame.length = payload.length := by
  have hLengths := congrArg (·[i]?) h.lengths_eq
  simp only [List.getElem?_map, hFrame, Option.map_some] at hLengths
  obtain ⟨payload, hPayload, hLength⟩ := Option.map_eq_some_iff.mp hLengths.symm
  refine ⟨payload, ?_, hLength.symm⟩
  rw [h.accepted_eq, List.getElem?_append_left (List.getElem?_eq_some_iff.mp hPayload).1, hPayload]

theorem step_decode {payload : Bytes} {later : List Bytes} (h : Balanced t answered (payload :: later))
    (hWhole : payload.length ≤ t.buffers.unread.length) :
    t.step .decode =
      { t with
        buffers := { t.buffers with
          codec := .awaiting later, unread := t.buffers.unread.drop payload.length }
        frames := t.frames ++ [t.buffers.unread.take payload.length] } := by
  simp [Transcript.step, Buffers.call, Buffers.found, h.owed, Codec.decode_cons, hWhole, Call.payloads,
    Call.bytes]

/-- Once all that is due has come, every call for a reply finds one. -/
theorem frames_run_decode (h : Balanced t answered due) (hUnread : t.buffers.unread = due.flatten) :
    (t.run (List.replicate due.length .decode)).frames = t.frames ++ due := by
  induction due generalizing t answered with
  | nil => exact (List.append_nil _).symm
  | cons payload later ih =>
    have hWhole : payload.length ≤ t.buffers.unread.length := by simp [hUnread]
    have hNext := ih (h.reply hWhole) (by simp [hUnread])
    change ((t.step .decode).run (List.replicate later.length .decode)).frames = _
    rw [h.step_decode hWhole, hNext, hUnread]
    simp

end Balanced
end Transcript

namespace Buffers
variable {b : Buffers} {due : List Bytes}

theorem found_fst_eq_some_iff {decoded : Except CodecError (Option (Bytes × Bytes × Codec))}
    {frame : Bytes} : (b.found decoded).1 = .ok (some frame) ↔
      ∃ rest codec, decoded = .ok (some (frame, rest, codec)) := by
  match decoded with
  | .error cause => simp [found]
  | .ok none => simp [found]
  | .ok (some (reply, rest, codec)) => simp [found]

theorem found_fst_eq_error_iff {decoded : Except CodecError (Option (Bytes × Bytes × Codec))}
    {cause : CodecError} : (b.found decoded).1 = .error cause ↔ decoded = .error cause := by
  match decoded with
  | .error cause => simp [found]
  | .ok none => simp [found]
  | .ok (some (reply, rest, codec)) => simp [found]

theorem found_snd {decoded : Except CodecError (Option (Bytes × Bytes × Codec))}
    (h : ∀ frame, (b.found decoded).1 ≠ .ok (some frame)) : (b.found decoded).2 = b := by
  match decoded with
  | .error cause => rfl
  | .ok none => rfl
  | .ok (some (reply, rest, codec)) => exact absurd rfl (h reply)

theorem decode_answer_eq_some_iff (h : b.codec = .awaiting due) {frame : Bytes} :
    (b.call .decode).1 = .ok (some frame) ↔ ∃ payload, due.head? = some payload ∧
      payload.length ≤ b.unread.length ∧ frame = b.unread.take payload.length := by
  rw [call, found_fst_eq_some_iff, h]
  constructor
  · rintro ⟨rest, codec, hDecode⟩
    obtain ⟨payload, later, rfl, hWhole, rfl, -, -⟩ := Codec.decode_eq_some_iff.mp hDecode
    exact ⟨payload, rfl, hWhole, rfl⟩
  · rintro ⟨payload, hNext, hWhole, rfl⟩
    obtain ⟨later, rfl⟩ := List.head?_eq_some_iff.mp hNext
    exact ⟨_, _, Codec.decode_eq_some_iff.mpr ⟨payload, later, rfl, hWhole, rfl, rfl, rfl⟩⟩

theorem decode_answer_eq_error_iff (h : b.codec = .awaiting due) {cause : CodecError} :
    (b.call .decode).1 = .error cause ↔
      due = [] ∧ b.unread ≠ [] ∧ cause = .unexpectedBytes b.unread.length := by
  rw [call, found_fst_eq_error_iff, h, Codec.decode_eq_error_iff]

theorem encode_answer_eq_ok_iff (b : Buffers) (payload : Bytes) :
    (b.call (.encode payload)).1 = .ok none ↔ payload ≠ [] := by
  by_cases hEmpty : payload = [] <;> simp [call, Codec.encode, hEmpty]

/-- A call that fails changes nothing, and neither does a search that finds no reply. -/
theorem call_snd {call : Call} (h : (∃ cause, (b.call call).1 = .error cause) ∨
    (call = .decode ∨ call = .decodeEnd) ∧ (b.call call).1 = .ok none) : (b.call call).2 = b := by
  have hNoReply : ∀ frame, (b.call call).1 ≠ .ok (some frame) := by
    intro frame hReply
    rcases h with ⟨cause, hError⟩ | ⟨-, hNone⟩
    · cases hError.symm.trans hReply
    · cases hNone.symm.trans hReply
  cases call with
  | encode payload =>
    rcases h with ⟨cause, hError⟩ | ⟨hDecodes, -⟩
    · cases hEncode : b.codec.encode payload <;> simp_all [Buffers.call]
    · simp at hDecodes
  | feed bytes =>
    rcases h with ⟨cause, hError⟩ | ⟨hDecodes, -⟩
    · cases hError
    · simp at hDecodes
  | decode => exact found_snd hNoReply
  | decodeEnd => exact found_snd hNoReply

end Buffers

/-- Replies that are as long as the payloads, and begin as these do, are the payloads. -/
theorem eq_of_flatten_prefix {frames answered : List Bytes} {rest later : Bytes}
    (hLengths : frames.map List.length = answered.map List.length)
    (h : frames.flatten ++ rest <+: answered.flatten ++ later) : frames = answered ∧ rest <+: later := by
  induction frames generalizing answered with
  | nil =>
    obtain rfl : answered = [] := List.map_eq_nil_iff.mp hLengths.symm
    exact ⟨rfl, h⟩
  | cons frame frames ih =>
    cases answered with
    | nil => cases hLengths
    | cons payload answered =>
      obtain ⟨hLength, hOthers⟩ := List.cons.inj hLengths
      obtain ⟨more, hMore⟩ := h
      simp only [List.flatten_cons, List.append_assoc] at hMore
      obtain ⟨rfl, hRest⟩ := List.append_inj hMore hLength
      obtain ⟨rfl, hPrefix⟩ := ih hOthers ⟨more, by rw [List.append_assoc, hRest]⟩
      exact ⟨rfl, hPrefix⟩

/-- The replies are the bytes that have come, cut to the lengths of the accepted payloads. A reply is
found when all its bytes have come, and only bytes that nobody expects are a failure. If what has come
is the beginning of what was written, however it was cut, the replies are the first payloads, and all
of them can be had once all has come. -/
theorem replies_are_cut_by_length (calls : List Call) :
    let t := Transcript.start.run calls
    let b := t.buffers
    t.frames.flatten ++ b.unread = t.fed ∧
    (∀ (i : Nat) (frame : Bytes), t.frames[i]? = some frame →
      ∃ payload : Bytes, t.accepted[i]? = some payload ∧ frame.length = payload.length) ∧
    b.codec.pending + t.frames.length = t.accepted.length ∧
    b.wire = t.accepted.flatten ∧
    (∀ payload, (b.call (.encode payload)).1 = .ok none ↔ payload ≠ []) ∧
    (∀ frame, (b.call .decode).1 = .ok (some frame) ↔
      ∃ payload, t.accepted[t.frames.length]? = some payload ∧ payload.length ≤ b.unread.length ∧
        frame = b.unread.take payload.length) ∧
    (∀ cause, (b.call .decode).1 = .error cause ↔
      t.frames.length = t.accepted.length ∧ b.unread ≠ [] ∧
        cause = .unexpectedBytes b.unread.length) ∧
    (∀ call, (∃ cause, (b.call call).1 = .error cause) ∨
      (call = .decode ∨ call = .decodeEnd) ∧ (b.call call).1 = .ok none → (b.call call).2 = b) ∧
    (t.fed <+: b.wire →
      t.frames <+: t.accepted ∧ (∀ cause, (b.call .decode).1 ≠ .error cause) ∧
      (t.fed = b.wire →
        ((b.call .decode).1 = .ok none → t.frames = t.accepted) ∧
        (t.run (List.replicate b.codec.pending .decode)).frames = t.accepted)) := by
  intro t b
  obtain ⟨answered, due, h⟩ := Transcript.Balanced.start.run calls
  have hCut := h.cut
  have hNone : due = [] ↔ t.frames.length = t.accepted.length := by
    rw [h.accepted_eq, h.length_frames, List.length_append, ← List.length_eq_zero_iff]
    omega
  refine ⟨hCut, fun i frame => h.length_frame, h.pending_eq, h.written,
    Buffers.encode_answer_eq_ok_iff b, ?_, ?_, fun call => Buffers.call_snd, ?_⟩
  · intro frame
    rw [Buffers.decode_answer_eq_some_iff h.owed, h.getElem?_accepted]
  · intro cause
    rw [Buffers.decode_answer_eq_error_iff h.owed, hNone]
  · intro hBeginning
    have hWire : b.wire = answered.flatten ++ due.flatten := by
      rw [h.written, h.accepted_eq, List.flatten_append]
    rw [← hCut, hWire] at hBeginning
    obtain ⟨hFrames, hUnread⟩ := eq_of_flatten_prefix h.lengths_eq hBeginning
    have hAccepted : t.frames ++ due = t.accepted := by rw [hFrames, h.accepted_eq]
    refine ⟨⟨due, hAccepted⟩, fun cause hError => ?_, fun hAll => ?_⟩
    · obtain ⟨rfl, hBytes, -⟩ := (Buffers.decode_answer_eq_error_iff h.owed).mp hError
      exact hBytes (List.prefix_nil.mp hUnread)
    · have hRest : b.unread = due.flatten := by
        rw [← hCut, hWire, hFrames] at hAll
        exact List.append_cancel_left hAll
      refine ⟨fun hNothing => ?_, ?_⟩
      · cases due with
        | nil => rw [← hAccepted, List.append_nil]
        | cons payload later =>
          have hWhole : payload.length ≤ b.unread.length := by
            rw [hRest, List.flatten_cons, List.length_append]
            exact Nat.le_add_right _ _
          have hFound := (Buffers.decode_answer_eq_some_iff h.owed).mpr ⟨payload, rfl, hWhole, rfl⟩
          cases hNothing.symm.trans hFound
      · rw [h.owed, Codec.pending_awaiting, ← hAccepted]
        exact h.frames_run_decode hRest

/-- The echo comes in pieces that are not the payloads, and one payload is refused. -/
theorem replies_are_cut_by_length_oddPieces :
    let t := Transcript.start.run
      [.encode [1, 2], .encode [], .encode [3], .feed [1], .decode, .feed [2, 3], .decode]
    t.fed = t.buffers.wire ∧ t.frames <+: t.accepted ∧ t.buffers.codec.pending = 1 ∧
      (t.run [.decode]).frames = [[1, 2], [3]] := by
  intro t
  obtain ⟨-, -, -, -, -, -, -, -, hEcho⟩ := replies_are_cut_by_length
    [.encode [1, 2], .encode [], .encode [3], .feed [1], .decode, .feed [2, 3], .decode]
  have hAll : t.fed = t.buffers.wire := by decide
  obtain ⟨hFirst, -, hLast⟩ := hEcho (hAll ▸ List.prefix_refl _)
  exact ⟨hAll, hFirst, by decide, (hLast hAll).2⟩

end Switchyard.Echo
