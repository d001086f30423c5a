import Mathlib.Algebra.BigOperators.Group.List.Basic
import Mathlib.Algebra.GroupWithZero.Nat
import Mathlib.Algebra.Order.Group.Nat
import Mathlib.Algebra.Order.BigOperators.Group.List
import Switchyard.Proofs.Echo.Framing

/-! # What a codec makes of the last bytes

At the end of the bytes a codec is asked for replies until it has no more. It gives up every reply of
which all bytes have come, and stops behind the last one. What it says then depends on whether bytes are
left there, and on whether anybody expects them.
-/
namespace Switchyard.Echo
set_option autoImplicit false

namespace Codec
variable {c after last : Codec} {buffer left frame rest : Bytes} {frames : List Bytes}
  {ending : Except CodecError Unit}

/-- What encoding and decoding can make of a new codec. A call that fails or finds no reply leaves it as
it is. -/
inductive Reachable : Codec → Prop
  | empty : Reachable .empty
  | encode {c after : Codec} {payload bytes : Bytes} (h : Reachable c)
    (hEncode : c.encode payload = .ok (bytes, after)) : Reachable after
  | decode {c after : Codec} {buffer frame rest : Bytes} (h : Reachable c)
    (hDecode : c.decode buffer = .ok (some (frame, rest, after))) : Reachable after
  | decodeEnd {c after : Codec} {buffer frame rest : Bytes} (h : Reachable c)
    (hDecode : c.decodeEnd buffer = .ok (some (frame, rest, after))) : Reachable after

/-- Asks for replies at the end of the bytes until there is none. The codec and the bytes that are left
then are the last ones. -/
inductive Drains : Codec → Bytes → List Bytes → Except CodecError Unit → Codec → Bytes → Prop
  | done {c : Codec} {buffer : Bytes} (hDecode : c.decodeEnd buffer = .ok none) :
    Drains c buffer [] (.ok ()) c buffer
  | failed {c : Codec} {buffer : Bytes} {cause : CodecError}
    (hDecode : c.decodeEnd buffer = .error cause) : Drains c buffer [] (.error cause) c buffer
  | reply {c after last : Codec} {buffer frame rest left : Bytes} {frames : List Bytes}
    {ending : Except CodecError Unit}
    (hDecode : c.decodeEnd buffer = .ok (some (frame, rest, after)))
    (hLater : Drains after rest frames ending last left) :
    Drains c buffer (frame :: frames) ending last left

/-- Where the reply at place `n` begins, and the one before it ends. -/
def boundary (c : Codec) (n : Nat) : Nat := (c.expected.take n).sum

/-! ## One reply -/

theorem decodeEnd_nil (buffer : Bytes) : decodeEnd ⟨[]⟩ buffer =
    if buffer = [] then .ok none else .error (.unexpectedBytes buffer.length) := by
  rw [decodeEnd_eq]
  by_cases hEmpty : buffer = [] <;> simp [Codec.decode, hEmpty]

theorem decodeEnd_cons (length : Nat) (later : List Nat) (buffer : Bytes) :
    decodeEnd ⟨length :: later⟩ buffer =
      if length ≤ buffer.length then .ok (some (buffer.take length, buffer.drop length, ⟨later⟩))
      else if buffer = [] then .ok none
      else .error (.missingBytes (length - buffer.length)) := by
  rw [decodeEnd_eq]
  by_cases hWhole : length ≤ buffer.length
  · simp [Codec.decode, hWhole]
  · simp only [Codec.decode, if_neg hWhole]
    cases buffer <;> rfl

theorem decodeEnd_eq_reply_iff : c.decodeEnd buffer = .ok (some (frame, rest, after)) ↔
    ∃ length later, c.expected = length :: later ∧ length ≤ buffer.length ∧
      frame = buffer.take length ∧ rest = buffer.drop length ∧ after = ⟨later⟩ := by
  obtain ⟨_ | ⟨length, later⟩⟩ := c
  · rw [decodeEnd_nil]
    split <;> simp
  · rw [decodeEnd_cons]
    by_cases hWhole : length ≤ buffer.length
    · simp [hWhole, eq_comm]
    · rw [if_neg hWhole]
      split <;> simp [hWhole]

theorem decodeEnd_eq_error_iff {cause : CodecError} : c.decodeEnd buffer = .error cause ↔
    buffer ≠ [] ∧ (c.expected = [] ∧ cause = .unexpectedBytes buffer.length ∨
      ∃ length later, c.expected = length :: later ∧ buffer.length < length ∧
        cause = .missingBytes (length - buffer.length)) := by
  obtain ⟨_ | ⟨length, later⟩⟩ := c
  · rw [decodeEnd_nil]
    split <;> simp_all [eq_comm]
  · rw [decodeEnd_cons]
    by_cases hWhole : length ≤ buffer.length
    · have hLong : ¬buffer.length < length := Nat.not_lt.mpr hWhole
      simp [hWhole, hLong]
    · rw [if_neg hWhole]
      have hShort : buffer.length < length := Nat.not_le.mp hWhole
      split <;> simp_all [eq_comm]

theorem eq_nil_of_decodeEnd (h : c.decodeEnd buffer = .ok none) : buffer = [] := by
  obtain ⟨_ | ⟨length, later⟩⟩ := c
  · rw [decodeEnd_nil] at h
    split at h
    · assumption
    · cases h
  · rw [decodeEnd_cons] at h
    split at h
    · cases h
    · split at h
      · assumption
      · cases h

theorem pos_of_decodeEnd (hPos : ∀ length ∈ c.expected, 0 < length)
    (h : c.decodeEnd buffer = .ok (some (frame, rest, after))) :
    ∀ length ∈ after.expected, 0 < length := by
  obtain ⟨next, later, hExpected, -, -, -, rfl⟩ := decodeEnd_eq_reply_iff.mp h
  exact fun length hLater => hPos length (hExpected ▸ List.mem_cons_of_mem next hLater)

/-- An empty payload is refused, so no reply that is expected is empty. -/
theorem Reachable.pos (h : c.Reachable) : ∀ length ∈ c.expected, 0 < length := by
  induction h with
  | empty => nofun
  | @encode c after payload bytes _ hEncode ih =>
    have hPayload : payload ≠ [] := by
      rintro rfl
      simp [Codec.encode] at hEncode
    obtain ⟨-, rfl⟩ := encode_eq_ok hEncode
    intro length hLength
    rcases List.mem_append.mp hLength with hOld | hNew
    · exact ih length hOld
    · rw [List.mem_singleton.mp hNew]
      exact List.length_pos_iff.mpr hPayload
  | @decode c after buffer frame rest _ hDecode ih =>
    have hDecodeEnd : c.decodeEnd buffer = .ok (some (frame, rest, after)) := by
      rw [decodeEnd_eq, hDecode]
    exact pos_of_decodeEnd ih hDecodeEnd
  | decodeEnd _ hDecode ih => exact pos_of_decodeEnd ih hDecode

/-! ## All replies -/

@[simp] theorem boundary_zero (c : Codec) : c.boundary 0 = 0 := rfl

theorem boundary_succ {length : Nat} {later : List Nat} (h : c.expected = length :: later) (n : Nat) :
    c.boundary (n + 1) = length + boundary ⟨later⟩ n := by
  simp [boundary, h]

theorem boundary_mono (c : Codec) {m n : Nat} (h : m ≤ n) : c.boundary m ≤ c.boundary n :=
  ((List.take_prefix_take_left h).sublist.sum_le_sum fun _ _ => Nat.zero_le _ :)

namespace Drains

theorem exists_ending (c : Codec) (buffer : Bytes) :
    ∃ frames ending last left, c.Drains buffer frames ending last left := by
  obtain ⟨expected⟩ := c
  induction expected generalizing buffer with
  | nil =>
    cases hDecode : decodeEnd ⟨[]⟩ buffer with
    | error cause => exact ⟨_, _, _, _, .failed hDecode⟩
    | ok found =>
      cases found with
      | none => exact ⟨_, _, _, _, .done hDecode⟩
      | some reply =>
        obtain ⟨_, _, hExpected, -⟩ := decodeEnd_eq_reply_iff.mp hDecode
        cases hExpected
  | cons length later ih =>
    cases hDecode : decodeEnd ⟨length :: later⟩ buffer with
    | error cause => exact ⟨_, _, _, _, .failed hDecode⟩
    | ok found =>
      cases found with
      | none => exact ⟨_, _, _, _, .done hDecode⟩
      | some reply =>
        -- every reply takes a length from the codec
        obtain ⟨_, _, hExpected, -, -, -, hAfter⟩ := decodeEnd_eq_reply_iff.mp hDecode
        cases hExpected
        obtain ⟨frames, ending, last, left, hLater⟩ := ih reply.2.1
        exact ⟨_, _, _, _, .reply hDecode (hAfter ▸ hLater)⟩

theorem unique (h : c.Drains buffer frames ending last left) {frames' : List Bytes}
    {ending' : Except CodecError Unit} {last' : Codec} {left' : Bytes}
    (h' : c.Drains buffer frames' ending' last' left') :
    frames' = frames ∧ ending' = ending ∧ last' = last ∧ left' = left := by
  induction h generalizing frames' with
  | done hDecode =>
    cases h' with
    | done => exact ⟨rfl, rfl, rfl, rfl⟩
    | failed hDecode' | reply hDecode' => cases hDecode.symm.trans hDecode'
  | failed hDecode =>
    cases h' with
    | failed hDecode' =>
      cases hDecode.symm.trans hDecode'
      exact ⟨rfl, rfl, rfl, rfl⟩
    | done hDecode' | reply hDecode' => cases hDecode.symm.trans hDecode'
  | reply hDecode _ ih =>
    cases h' with
    | done hDecode' | failed hDecode' => cases hDecode.symm.trans hDecode'
    | reply hDecode' hLater' =>
      cases hDecode.symm.trans hDecode'
      obtain ⟨rfl, rfl, rfl, rfl⟩ := ih hLater'
      exact ⟨rfl, rfl, rfl, rfl⟩

/-- What is said at the end is what the codec says of the bytes that are left. -/
theorem decodeEnd_last (h : c.Drains buffer frames ending last left) :
    last.decodeEnd left = ending.map fun _ => none := by
  induction h with
  | done hDecode | failed hDecode => exact hDecode
  | reply _ _ ih => exact ih

theorem last_eq (h : c.Drains buffer frames ending last left) :
    last = ⟨c.expected.drop frames.length⟩ := by
  induction h with
  | done | failed => rfl
  | reply hDecode _ ih =>
    obtain ⟨_, _, hExpected, -, -, -, rfl⟩ := decodeEnd_eq_reply_iff.mp hDecode
    simpa [hExpected] using ih

theorem left_eq (h : c.Drains buffer frames ending last left) :
    left = buffer.drop (c.boundary frames.length) := by
  induction h with
  | done | failed => rfl
  | reply hDecode _ ih =>
    obtain ⟨_, _, hExpected, -, -, rfl, rfl⟩ := decodeEnd_eq_reply_iff.mp hDecode
    rw [ih, List.drop_drop, List.length_cons, boundary_succ hExpected]

theorem map_length_frames (h : c.Drains buffer frames ending last left) :
    frames.map List.length = c.expected.take frames.length := by
  induction h with
  | done | failed => rfl
  | reply hDecode _ ih =>
    obtain ⟨_, _, hExpected, hWhole, rfl, -, rfl⟩ := decodeEnd_eq_reply_iff.mp hDecode
    simp [hExpected, hWhole, ih]

theorem getElem?_frames (h : c.Drains buffer frames ending last left)
    (hPos : ∀ length ∈ c.expected, 0 < length) (i : Nat) :
    frames[i]? = some frame ↔ ∃ length, c.expected[i]? = some length ∧
      c.boundary (i + 1) ≤ buffer.length ∧ frame = (buffer.drop (c.boundary i)).take length := by
  induction h generalizing i with
  | @done c buffer hDecode =>
    obtain rfl := eq_nil_of_decodeEnd hDecode
    refine ⟨nofun, ?_⟩
    rintro ⟨length, hNext, hFits, -⟩
    obtain ⟨_ | ⟨first, later⟩⟩ := c
    · cases hNext
    · have hFirst : 0 < first := hPos first List.mem_cons_self
      rw [boundary_succ rfl, List.length_nil] at hFits
      omega
  | @failed c buffer cause hDecode =>
    obtain ⟨-, ⟨hNone, -⟩ | ⟨first, later, hExpected, hShort, -⟩⟩ :=
      decodeEnd_eq_error_iff.mp hDecode
    · simp [hNone]
    · have hLong : ¬first + boundary ⟨later⟩ i ≤ buffer.length := fun hFits => by omega
      simp [boundary_succ hExpected, hLong]
  | @reply c _ _ buffer _ _ _ _ _ hDecode _ ih =>
    have hLater := ih (pos_of_decodeEnd hPos hDecode)
    obtain ⟨first, later, hExpected, hWhole, rfl, rfl, rfl⟩ := decodeEnd_eq_reply_iff.mp hDecode
    cases i with
    | zero => simp [hExpected, boundary_succ hExpected, hWhole, eq_comm]
    | succ i =>
      have hFits : first + boundary ⟨later⟩ (i + 1) ≤ buffer.length ↔
          boundary ⟨later⟩ (i + 1) ≤ (buffer.drop first).length := by
        rw [List.length_drop]
        omega
      rw [List.getElem?_cons_succ, hLater, hExpected, List.getElem?_cons_succ, boundary_succ hExpected,
        boundary_succ hExpected, hFits, List.drop_drop]

theorem length_frames_le (h : c.Drains buffer frames ending last left) :
    frames.length ≤ c.pending := by
  induction h with
  | done | failed => exact Nat.zero_le _
  | reply hDecode _ ih =>
    obtain ⟨_, _, hExpected, -, -, -, rfl⟩ := decodeEnd_eq_reply_iff.mp hDecode
    simpa [pending, hExpected] using ih

theorem boundary_le (h : c.Drains buffer frames ending last left) :
    c.boundary frames.length ≤ buffer.length := by
  induction h with
  | done | failed => exact Nat.zero_le _
  | reply hDecode _ ih =>
    obtain ⟨_, _, hExpected, hWhole, -, rfl, rfl⟩ := decodeEnd_eq_reply_iff.mp hDecode
    rw [List.length_cons, boundary_succ hExpected]
    rw [List.length_drop] at ih
    omega

theorem ending_eq_error_iff (h : c.Drains buffer frames ending last left) {cause : CodecError} :
    ending = .error cause ↔ left ≠ [] ∧ (last.expected = [] ∧ cause = .unexpectedBytes left.length ∨
      ∃ length later, last.expected = length :: later ∧ left.length < length ∧
        cause = .missingBytes (length - left.length)) := by
  rw [← decodeEnd_eq_error_iff, h.decodeEnd_last]
  cases ending <;> simp [Except.map]

theorem ending_eq_ok_iff (h : c.Drains buffer frames ending last left) :
    ending = .ok () ↔ left = [] := by
  have hLast := h.decodeEnd_last
  cases ending with
  | ok => exact ⟨fun _ => eq_nil_of_decodeEnd hLast, fun _ => rfl⟩
  | error cause =>
    obtain ⟨hLeft, -⟩ := h.ending_eq_error_iff.mp rfl
    exact ⟨nofun, fun hNone => absurd hNone hLeft⟩

/-- Nothing is left exactly when the bytes end where a reply ends. -/
theorem left_eq_nil_iff (h : c.Drains buffer frames ending last left)
    (hPos : ∀ length ∈ c.expected, 0 < length) :
    left = [] ↔ ∃ n ≤ c.pending, buffer.length = c.boundary n := by
  rw [h.left_eq, List.drop_eq_nil_iff]
  constructor
  · exact fun hEnd => ⟨frames.length, h.length_frames_le, Nat.le_antisymm hEnd h.boundary_le⟩
  · rintro ⟨n, hPending, hLength⟩
    -- the reply that ends there has been taken, so the last one taken does not end before it
    suffices n ≤ frames.length from hLength ▸ c.boundary_mono this
    cases n with
    | zero => exact Nat.zero_le _
    | succ i =>
      have hNext := List.getElem?_eq_getElem (l := c.expected) hPending
      have hFrame := (h.getElem?_frames hPos i).mpr ⟨_, hNext, hLength.ge, rfl⟩
      exact (List.getElem?_eq_some_iff.mp hFrame).1

end Drains

/-- At the end of the bytes a codec gives up the replies that are whole, each once and in order, and
stops behind the last of them. -/
theorem Reachable.ends_behind_last_whole_reply (h : c.Reachable) (unread : Bytes) :
    ∃ frames ending last left, c.Drains unread frames ending last left ∧
      (∀ frames' ending' last' left', c.Drains unread frames' ending' last' left' →
        frames' = frames ∧ ending' = ending ∧ last' = last ∧ left' = left) ∧
      (∀ i frame, frames[i]? = some frame ↔ ∃ length, c.expected[i]? = some length ∧
        c.boundary (i + 1) ≤ unread.length ∧ frame = (unread.drop (c.boundary i)).take length) ∧
      frames.map List.length = c.expected.take frames.length ∧ (∀ frame ∈ frames, frame ≠ []) ∧
      last.expected = c.expected.drop frames.length ∧
      left = unread.drop (c.boundary frames.length) ∧
      (ending = .ok () ↔ ∃ n ≤ c.pending, unread.length = c.boundary n) ∧
      (∀ count, ending = .error (.unexpectedBytes count) ↔
        left ≠ [] ∧ last.expected = [] ∧ count = left.length) ∧
      (∀ count, ending = .error (.missingBytes count) ↔ left ≠ [] ∧ ∃ length later,
        last.expected = length :: later ∧ left.length < length ∧ count = length - left.length) ∧
      (∀ count, ending = .error (.missingBytes count) → 0 < count) ∧
      ending ≠ .error .emptyPayload := by
  obtain ⟨frames, ending, last, left, hDrains⟩ := Drains.exists_ending c unread
  have hMissing (count : Nat) : ending = .error (.missingBytes count) ↔ left ≠ [] ∧ ∃ length later,
      last.expected = length :: later ∧ left.length < length ∧ count = length - left.length := by
    simp [hDrains.ending_eq_error_iff]
  refine ⟨frames, ending, last, left, hDrains, fun _ _ _ _ => hDrains.unique,
    fun i _ => hDrains.getElem?_frames h.pos i, hDrains.map_length_frames, fun frame hFrame => ?_,
    congrArg expected hDrains.last_eq, hDrains.left_eq,
    hDrains.ending_eq_ok_iff.trans (hDrains.left_eq_nil_iff h.pos), fun count => ?_,
    hMissing, fun count hEnding => ?_, fun hEnding => ?_⟩
  · have hLength : frame.length ∈ c.expected.take frames.length :=
      hDrains.map_length_frames ▸ List.mem_map_of_mem hFrame
    exact List.length_pos_iff.mp (h.pos _ (List.mem_of_mem_take hLength))
  · simp [hDrains.ending_eq_error_iff]
  · obtain ⟨-, length, later, -, hShort, rfl⟩ := (hMissing count).mp hEnding
    exact Nat.sub_pos_of_lt hShort
  · simp [hDrains.ending_eq_error_iff] at hEnding

/-- One reply has been taken before, one is whole, and of the third the first byte has come. -/
theorem ends_behind_last_whole_reply_cutShort :
    Reachable ⟨[3, 4]⟩ ∧ ∃ frames last left,
      Drains ⟨[3, 4]⟩ [3, 4, 5, 6] frames (.error (.missingBytes 3)) last left ∧
        frames = [[3, 4, 5]] ∧ last = ⟨[4]⟩ ∧ left = [6] := by
  have hOne : Reachable ⟨[2]⟩ := @Reachable.encode _ _ [1, 2] _ .empty rfl
  have hTwo : Reachable ⟨[2, 3]⟩ := @Reachable.encode _ _ [3, 4, 5] _ hOne rfl
  have hAll : Reachable ⟨[2, 3, 4]⟩ := @Reachable.encode _ _ [6, 7, 8, 9] _ hTwo rfl
  have hReachable : Reachable ⟨[3, 4]⟩ := @Reachable.decode _ _ [1, 2, 3] _ _ hAll rfl
  obtain ⟨frames, ending, ⟨expected⟩, left, hDrains, -, hFrames, -, -, hLast, hLeft, -, -, hMissing, -⟩ :=
    hReachable.ends_behind_last_whole_reply [3, 4, 5, 6]
  have hFirst : frames[0]? = some [3, 4, 5] := (hFrames 0 _).mpr ⟨3, rfl, by decide, rfl⟩
  have hSecond : frames[1]? = none := by
    refine Option.eq_none_iff_forall_not_mem.mpr fun frame hFrame => ?_
    obtain ⟨_, -, hFits, -⟩ := (hFrames 1 frame).mp hFrame
    exact absurd hFits (by decide)
  obtain rfl : frames = [[3, 4, 5]] := by
    match frames, hFirst, hSecond with
    | [_], rfl, _ => rfl
  subst hLast hLeft
  have hEnding : ending = .error (.missingBytes 3) :=
    (hMissing 3).mpr ⟨by decide, 4, [], rfl, by decide, rfl⟩
  exact ⟨hReachable, _, _, _, hEnding ▸ hDrains, rfl, rfl, rfl⟩

end Codec
end Switchyard.Echo
