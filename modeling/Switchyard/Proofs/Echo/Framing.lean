import Mathlib.Data.List.Infix
import Switchyard.Echo.Codec

/-! # Cutting an echo

As long as the lengths a codec expects are those of some payloads, and what has arrived is the
beginning of these, a codec finds the payloads themselves. It can fail at the end only, when a part of
one is missing.
-/
namespace Switchyard.Echo
set_option autoImplicit false

namespace CodecError

/-- The three kinds of failure can be told apart by their texts. -/
theorem eq_unexpectedBytes_of_message {cause : CodecError} {count : Nat}
    (h : cause.message = (unexpectedBytes count).message) : ∃ n, cause = unexpectedBytes n := by
  have hEnd := congrArg (fun text : String => text.toList.reverse[2]?) h
  unfold message at hEnd
  cases cause with
  | emptyPayload => simp [toString] at hEnd
  | unexpectedBytes n => exact ⟨n, rfl⟩
  | missingBytes n => simp [toString] at hEnd

end CodecError

namespace Codec
variable {c after : Codec} {payload bytes buffer : Bytes} {payloads : List Bytes}

def awaiting (payloads : List Bytes) : Codec := ⟨payloads.map List.length⟩

theorem encode_eq_ok (h : c.encode payload = .ok (bytes, after)) :
    bytes = payload ∧ after = ⟨c.expected ++ [payload.length]⟩ := by
  unfold encode at h
  split at h
  · cases h
  · cases h
    exact ⟨rfl, rfl⟩

theorem encode_eq_error {cause : CodecError} (h : c.encode payload = .error cause) :
    cause = .emptyPayload := by
  unfold encode at h
  split at h
  · cases h
    rfl
  · cases h

/-- What can come of looking for the next of these payloads in their first bytes. -/
inductive Finds (payloads : List Bytes) (buffer : Bytes) :
    Except CodecError (Option (Bytes × Bytes × Codec)) → Prop
  | nothing : Finds payloads buffer (.ok none)
  | reply {payload rest : Bytes} {later : List Bytes} (hNext : payloads = payload :: later)
    (hBuffer : buffer = payload ++ rest) :
    Finds payloads buffer (.ok (some (payload, rest, awaiting later)))
  | cutShort (count : Nat) : Finds payloads buffer (.error (.missingBytes count))

theorem decode_finds (hBuffer : buffer <+: payloads.flatten) :
    Finds payloads buffer ((awaiting payloads).decode buffer) := by
  cases payloads with
  | nil =>
    obtain rfl : buffer = [] := List.prefix_nil.mp hBuffer
    exact .nothing
  | cons payload later =>
    by_cases hWhole : payload.length ≤ buffer.length
    · obtain ⟨rest, rfl⟩ : payload <+: buffer :=
        List.prefix_of_prefix_length_le (List.prefix_append payload later.flatten) hBuffer hWhole
      simpa [decode, awaiting] using
        (Finds.reply rfl rfl : Finds (payload :: later) (payload ++ rest) _)
    · simp only [decode, awaiting, List.map_cons, hWhole, if_false]
      exact .nothing

theorem decodeEnd_eq (c : Codec) (buffer : Bytes) : c.decodeEnd buffer =
    match c.decode buffer with
    | .ok none =>
      if buffer.isEmpty then .ok none
      else .error (.missingBytes ((c.expected.head?.map (· - buffer.length)).getD 0))
    | decoded => decoded := by
  unfold decodeEnd
  cases c.decode buffer with
  | error cause => rfl
  | ok found => cases found <;> rfl

theorem decodeEnd_finds (hBuffer : buffer <+: payloads.flatten) :
    Finds payloads buffer ((awaiting payloads).decodeEnd buffer) := by
  rw [decodeEnd_eq]
  split
  · split
    · exact .nothing
    · exact .cutShort _
  · exact decode_finds hBuffer

end Codec
end Switchyard.Echo
