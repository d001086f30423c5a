import Mathlib.Data.List.Infix
import Switchyard.Proxy.Relay

/-! # The rounds of a direction

Beside a direction of a relay runs a log of the calls on its reader and its writer that have been
answered. It goes in rounds: a chunk is read, written part by part, and flushed. What has come since
the last whole round can be read off the phase that the direction is in.
-/
namespace Switchyard.Proxy
set_option autoImplicit false

/-- An answered call with what came of it. Reading no bytes is reading the end. -/
inductive RelayCall where
  | read (chunk : Bytes)
  | readFailed
  | write (accepted : Bytes)
  | writeFailed
  | flush (done : Bool)
  | shutdown
deriving DecidableEq

namespace RelayCall

def produced : RelayCall → Bytes
  | read chunk => chunk
  | _ => []

def delivered : RelayCall → Bytes
  | write accepted => accepted
  | _ => []

end RelayCall

/-- What the reader has given. -/
def produced (log : List RelayCall) : Bytes := log.flatMap RelayCall.produced

/-- What the writer has taken. -/
def delivered (log : List RelayCall) : Bytes := log.flatMap RelayCall.delivered

/-- A chunk that has been read, and the parts of it that have been written. -/
def passing (chunk : Bytes) (parts : List Bytes) : List RelayCall := .read chunk :: parts.map .write

/-- A whole chunk, passed on in these parts. -/
def round (parts : List Bytes) : List RelayCall := passing parts.flatten parts ++ [.flush true]

section Log

@[simp] theorem produced_nil : produced [] = [] := rfl

@[simp] theorem produced_cons (call : RelayCall) (log : List RelayCall) :
    produced (call :: log) = call.produced ++ produced log := List.flatMap_cons

@[simp] theorem produced_append (first second : List RelayCall) :
    produced (first ++ second) = produced first ++ produced second := List.flatMap_append

@[simp] theorem delivered_nil : delivered [] = [] := rfl

@[simp] theorem delivered_cons (call : RelayCall) (log : List RelayCall) :
    delivered (call :: log) = call.delivered ++ delivered log := List.flatMap_cons

@[simp] theorem delivered_append (first second : List RelayCall) :
    delivered (first ++ second) = delivered first ++ delivered second := List.flatMap_append

@[simp] theorem produced_passing (chunk : Bytes) (parts : List Bytes) :
    produced (passing chunk parts) = chunk := by
  have hWrites : produced (parts.map .write) = [] := by
    simp [produced, List.flatMap_map, RelayCall.produced]
  simp [passing, hWrites, RelayCall.produced]

@[simp] theorem delivered_passing (chunk : Bytes) (parts : List Bytes) :
    delivered (passing chunk parts) = parts.flatten := by
  have hWrites : delivered (parts.map .write) = parts.flatten := by
    simp [delivered, List.flatMap_map, RelayCall.delivered, List.flatMap_id']
  simp [passing, hWrites, RelayCall.delivered]

theorem passing_append (chunk : Bytes) (parts : List Bytes) (part : Bytes) :
    passing chunk parts ++ [.write part] = passing chunk (parts ++ [part]) := by
  simp [passing]

theorem produced_rounds (rounds : List (List Bytes)) :
    produced (rounds.flatMap round) = rounds.flatten.flatten := by
  induction rounds with
  | nil => rfl
  | cons parts rounds ih => simp [round, RelayCall.produced, ih]

theorem delivered_rounds (rounds : List (List Bytes)) :
    delivered (rounds.flatMap round) = rounds.flatten.flatten := by
  induction rounds with
  | nil => rfl
  | cons parts rounds ih => simp [round, RelayCall.delivered, ih]

end Log

/-- How a direction can be cut off in the middle of a round. -/
inductive CutOff (limit : Nat) : List RelayCall → Prop
  | resting : CutOff limit []
  | unread : CutOff limit [.readFailed]
  | unwritten {parts : List Bytes} {left : Bytes} (hSome : parts.flatten ++ left ≠ [])
    (hFits : (parts.flatten ++ left).length ≤ limit) :
    CutOff limit (passing (parts.flatten ++ left) parts)
  | refused {parts : List Bytes} {left : Bytes} (hSome : parts.flatten ++ left ≠ [])
    (hFits : (parts.flatten ++ left).length ≤ limit) :
    CutOff limit (passing (parts.flatten ++ left) parts ++ [.writeFailed])
  | unflushed {parts : List Bytes} (hSome : parts.flatten ≠ []) (hFits : parts.flatten.length ≤ limit) :
    CutOff limit (passing parts.flatten parts ++ [.flush false])

/-- What a direction has done since its last whole round, by its phase. Reading starts with nothing
outstanding, and behind the end of what is read there is nothing more to write. -/
inductive Since (limit : Nat) : ForwardPhase → List RelayCall → Prop
  | reading : Since limit .reading []
  | writing {parts : List Bytes} {left : Bytes} (hLeft : left ≠ [])
    (hFits : (parts.flatten ++ left).length ≤ limit) :
    Since limit (.writing (parts.flatten ++ left).length left) (passing (parts.flatten ++ left) parts)
  | flushing {parts : List Bytes} (hSome : parts.flatten ≠ []) (hFits : parts.flatten.length ≤ limit) :
    Since limit (.flushing parts.flatten.length) (passing parts.flatten parts)
  | ending : Since limit .finalFlush [.read []]
  | closing (done : Bool) : Since limit .finalShutdown [.read [], .flush done]
  | closed (done : Bool) : Since limit (.ended none) [.read [], .flush done, .shutdown]
  | cut (failure : Option Error) {tail : List RelayCall} (hCut : CutOff limit tail) :
    Since limit (.ended failure) tail

section Outstanding
variable {limit : Nat} {phase : ForwardPhase} {tail : List RelayCall}

theorem CutOff.outstanding (h : CutOff limit tail) :
    delivered tail <+: produced tail ∧ (produced tail).length ≤ limit := by
  cases h with
  | resting | unread => exact ⟨List.prefix_rfl, Nat.zero_le limit⟩
  | unwritten _ hFits => simpa using hFits
  | refused _ hFits => simpa [RelayCall.produced, RelayCall.delivered] using hFits
  | unflushed _ hFits => simpa [RelayCall.produced, RelayCall.delivered] using hFits

/-- At most one chunk is outstanding, and only its first bytes have been passed on. -/
theorem Since.outstanding (h : Since limit phase tail) :
    delivered tail <+: produced tail ∧ (produced tail).length ≤ limit := by
  cases h with
  | reading | ending | closing | closed => exact ⟨List.prefix_rfl, Nat.zero_le limit⟩
  | writing _ hFits => simpa using hFits
  | flushing _ hFits => simpa using hFits
  | cut _ hCut => exact hCut.outstanding

theorem read_nil_mem_passing {chunk : Bytes} {parts : List Bytes} :
    RelayCall.read [] ∈ passing chunk parts ↔ chunk = [] := by
  simp [passing, eq_comm]

theorem CutOff.read_nil_notMem (h : CutOff limit tail) : RelayCall.read [] ∉ tail := by
  cases h with
  | resting | unread => simp
  | unwritten hSome => rwa [read_nil_mem_passing]
  | refused hSome => simpa [read_nil_mem_passing] using hSome
  | unflushed hSome => simpa [read_nil_mem_passing] using hSome

/-- Behind the end nothing is outstanding, and a direction that has then ended has flushed and shut
down its writer. -/
theorem Since.of_read_nil (h : Since limit phase tail) (hEnd : RelayCall.read [] ∈ tail) :
    produced tail = [] ∧ delivered tail = [] ∧ ∀ failure, phase = .ended failure →
      failure = none ∧ ∃ done, tail = [.read [], .flush done, .shutdown] := by
  cases h with
  | reading => simp at hEnd
  | writing hLeft => simp [read_nil_mem_passing, hLeft] at hEnd
  | flushing hSome => exact absurd (read_nil_mem_passing.mp hEnd) hSome
  | ending | closing => exact ⟨rfl, rfl, nofun⟩
  | closed done =>
    refine ⟨rfl, rfl, fun failure hFailure => ⟨?_, done, rfl⟩⟩
    exact (ForwardPhase.ended.inj hFailure).symm
  | cut _ hCut => exact absurd hEnd hCut.read_nil_notMem

end Outstanding

namespace Forward

/-- The call that an event answers, if the direction has made one that it can answer. -/
def answered (f : Forward) (event : ForwardEvent) : List RelayCall :=
  match f.phase, event with
  | .reading, .read data => [.read (data.take f.limit)]
  | .reading, .readFailed _ => [.readFailed]
  | .writing _ left, .wrote n => [.write (left.take n)]
  | .writing .., .writeFailed _ => [.writeFailed]
  | .flushing _, .flushed | .finalFlush, .flushed => [.flush true]
  | .flushing _, .flushFailed _ | .finalFlush, .flushFailed _ => [.flush false]
  | .finalShutdown, .shutdownDone => [.shutdown]
  | _, _ => []

def record (f : Forward) (shared : Shared) (event : ForwardEvent) (log : List RelayCall) :
    List RelayCall :=
  if shared.closing && f.isCancellable then log else log ++ f.answered event

end Forward

/-- A direction keeps to its rounds: its log has these, and this has come since. -/
structure InRounds (f : Forward) (log : List RelayCall) (rounds : List (List Bytes))
    (tail : List RelayCall) : Prop where
  logged : log = rounds.flatMap round ++ tail
  whole : ∀ parts ∈ rounds, parts.flatten ≠ [] ∧ parts.flatten.length ≤ f.limit
  since : Since f.limit f.phase tail
  total : f.total = rounds.flatten.flatten.length
  taken : f.taken = produced log
  given : f.given = delivered log

namespace InRounds
variable {f f' : Forward} {log tail : List RelayCall} {rounds : List (List Bytes)}

/-- The direction goes on in the round that it is in. -/
theorem extend (h : InRounds f log rounds tail) {calls : List RelayCall} (hLimit : f'.limit = f.limit)
    (hTotal : f'.total = f.total) (hTaken : f'.taken = f.taken ++ produced calls)
    (hGiven : f'.given = f.given ++ delivered calls)
    (hSince : Since f.limit f'.phase (tail ++ calls)) :
    InRounds f' (log ++ calls) rounds (tail ++ calls) where
  logged := by rw [h.logged, List.append_assoc]
  whole := hLimit ▸ h.whole
  since := hLimit ▸ hSince
  total := hTotal.trans h.total
  taken := by rw [hTaken, h.taken, produced_append]
  given := by rw [hGiven, h.given, delivered_append]

/-- The direction comes to the end of a round. -/
theorem complete {parts : List Bytes} (h : InRounds f log rounds (passing parts.flatten parts))
    (hSome : parts.flatten ≠ []) (hFits : parts.flatten.length ≤ f.limit) :
    InRounds { f with phase := .reading, total := f.total + parts.flatten.length }
      (log ++ [.flush true]) (rounds ++ [parts]) [] where
  logged := by simp [h.logged, round]
  whole other hOther := by
    rcases List.mem_append.mp hOther with hOld | hNew
    · exact h.whole other hOld
    · rw [List.mem_singleton.mp hNew]
      exact ⟨hSome, hFits⟩
  since := .reading
  total := by simp [h.total]
  taken := by simp [h.taken, RelayCall.produced]
  given := by simp [h.given, RelayCall.delivered]

theorem start (direction : Direction) (bufferSize : Nat) :
    InRounds (.new direction bufferSize) [] [] [] where
  logged := rfl
  whole := nofun
  since := .reading
  total := rfl
  taken := rfl
  given := rfl

theorem cancel (h : InRounds f log rounds tail) (hCancellable : f.isCancellable = true) :
    InRounds { f with phase := .ended none } log rounds tail where
  logged := h.logged
  whole := h.whole
  since := by
    have hSince := h.since
    unfold Forward.isCancellable at hCancellable
    generalize f.phase = phase at hSince hCancellable
    cases hSince with
    | reading => exact .cut none .resting
    | @writing parts left hLeft hFits =>
      exact .cut none (.unwritten (by simp [hLeft]) hFits)
    | @flushing parts hSome hFits =>
      -- Nothing is left to write, but without the flush the chunk is not whole.
      have hCut : CutOff f.limit (passing (parts.flatten ++ []) parts) :=
        .unwritten (by simpa using hSome) (by simpa using hFits)
      rw [List.append_nil] at hCut
      exact .cut none hCut
    | ending | closing | closed | cut => cases hCancellable
  total := h.total
  taken := h.taken
  given := h.given

theorem fail (h : InRounds f log rounds tail) {calls : List RelayCall} (hProduced : produced calls = [])
    (hDelivered : delivered calls = []) (hCut : CutOff f.limit (tail ++ calls)) (shared : Shared)
    (cause : Error) : InRounds (f.fail shared cause).1 (log ++ calls) rounds (tail ++ calls) :=
  h.extend rfl rfl (by simp [Forward.fail, hProduced]) (by simp [Forward.fail, hDelivered])
    (.cut _ hCut)

theorem read (h : InRounds f log rounds []) (hPhase : f.phase = .reading) (shared : Shared)
    (data : Bytes) : InRounds (f.react shared (.read data)).1 (log ++ [.read (data.take f.limit)]) rounds
      [.read (data.take f.limit)] := by
  by_cases hEnd : data.take f.limit = []
  · simp only [Forward.react, hPhase, hEnd, List.isEmpty_nil, ↓reduceIte]
    exact h.extend rfl rfl (by simp [RelayCall.produced]) (by simp [RelayCall.delivered]) .ending
  · simp only [Forward.react, hPhase, List.isEmpty_iff, hEnd, ↓reduceIte]
    exact h.extend rfl rfl (by simp [RelayCall.produced]) (by simp [RelayCall.delivered])
      (@Since.writing _ [] _ hEnd (List.length_take_le _ _))

theorem wrote {parts : List Bytes} {left : Bytes}
    (h : InRounds f log rounds (passing (parts.flatten ++ left) parts))
    (hPhase : f.phase = .writing (parts.flatten ++ left).length left) (hLeft : left ≠ [])
    (hFits : (parts.flatten ++ left).length ≤ f.limit) (shared : Shared) (n : Nat) :
    InRounds (f.react shared (.wrote n)).1 (log ++ [.write (left.take n)]) rounds
      (passing (parts.flatten ++ left) parts ++ [.write (left.take n)]) := by
  have hChunk : parts.flatten ++ left = (parts ++ [left.take n]).flatten ++ left.drop n := by simp
  have hSome : parts.flatten ++ left ≠ [] := by simp [hLeft]
  have hTaken : f.taken = f.taken ++ produced [.write (left.take n)] := by simp [RelayCall.produced]
  by_cases hZero : n = 0
  · -- Writing nothing is a failure, and in the log it is an empty part.
    simp only [Forward.react, hPhase, hZero, ↓reduceIte]
    refine h.fail rfl rfl ?_ shared _
    rw [passing_append]
    rw [hZero] at hChunk
    rw [hChunk] at hSome hFits ⊢
    exact .unwritten hSome hFits
  by_cases hRest : left.drop n = []
  · simp only [Forward.react, hPhase, hZero, hRest, List.isEmpty_nil, ↓reduceIte]
    refine h.extend rfl rfl hTaken (by simp [RelayCall.delivered]) ?_
    rw [passing_append]
    rw [hRest, List.append_nil] at hChunk
    rw [hChunk] at hSome hFits ⊢
    exact .flushing hSome hFits
  · simp only [Forward.react, hPhase, hZero, List.isEmpty_iff, hRest, ↓reduceIte]
    refine h.extend rfl rfl hTaken (by simp [RelayCall.delivered]) ?_
    rw [passing_append]
    rw [hChunk] at hFits ⊢
    exact .writing hRest hFits

theorem react (h : InRounds f log rounds tail) (shared : Shared) (event : ForwardEvent) :
    ∃ rounds tail, InRounds (f.react shared event).1 (log ++ f.answered event) rounds tail := by
  obtain ⟨direction, limit, phase, total, taken, given⟩ := f
  -- An event out of turn answers no call.
  have hIdle (f : Forward) (h : InRounds f log rounds tail) :
      ∃ rounds tail, InRounds f (log ++ []) rounds tail := ⟨rounds, tail, by rwa [List.append_nil]⟩
  cases h.since with
  | reading =>
    cases event with
    | read data => exact ⟨rounds, _, h.read rfl shared data⟩
    | readFailed cause => exact ⟨rounds, _, h.fail rfl rfl .unread shared _⟩
    | _ => exact hIdle _ h
  | writing hLeft hFits =>
    cases event with
    | wrote n => exact ⟨rounds, _, h.wrote rfl hLeft hFits shared n⟩
    | writeFailed cause => exact ⟨rounds, _, h.fail rfl rfl (.refused (by simp [hLeft]) hFits) shared _⟩
    | _ => exact hIdle _ h
  | flushing hSome hFits =>
    cases event with
    | flushed => exact ⟨_, [], h.complete hSome hFits⟩
    | flushFailed cause => exact ⟨rounds, _, h.fail rfl rfl (.unflushed hSome hFits) shared _⟩
    | _ => exact hIdle _ h
  | ending =>
    have hClosing (done : Bool) : ∃ rounds tail, InRounds
        { direction, limit, phase := .finalShutdown, total, taken, given } (log ++ [.flush done])
        rounds tail :=
      ⟨rounds, _, h.extend rfl rfl (List.append_nil taken).symm (List.append_nil given).symm
        (.closing done)⟩
    cases event with
    | flushed => exact hClosing true
    | flushFailed cause => exact hClosing false
    | _ => exact hIdle _ h
  | closing done =>
    cases event with
    | shutdownDone =>
      exact ⟨rounds, _, h.extend rfl rfl (List.append_nil taken).symm (List.append_nil given).symm
        (.closed done)⟩
    | _ => exact hIdle _ h
  | closed | cut => cases event <;> exact hIdle _ h

theorem step (h : InRounds f log rounds tail) (shared : Shared) (event : ForwardEvent) :
    ∃ rounds tail, InRounds (f.step shared event).1 (f.record shared event log) rounds tail := by
  unfold Forward.step Forward.record
  split
  · rename_i hCut
    exact ⟨rounds, tail, h.cancel (Bool.and_eq_true_iff.mp hCut).2⟩
  · exact h.react shared event

theorem produced_eq (h : InRounds f log rounds tail) :
    produced log = rounds.flatten.flatten ++ produced tail := by
  rw [h.logged, produced_append, produced_rounds]

theorem delivered_eq (h : InRounds f log rounds tail) :
    delivered log = rounds.flatten.flatten ++ delivered tail := by
  rw [h.logged, delivered_append, delivered_rounds]

theorem delivered_prefix (h : InRounds f log rounds tail) : delivered log <+: produced log := by
  rw [h.produced_eq, h.delivered_eq]
  exact (List.prefix_append_right_inj _).mpr h.since.outstanding.1

theorem length_le (h : InRounds f log rounds tail) :
    f.total ≤ (delivered log).length ∧ (delivered log).length ≤ (produced log).length ∧
      (produced log).length ≤ f.total + f.limit := by
  refine ⟨?_, h.delivered_prefix.length_le, ?_⟩
  · rw [h.delivered_eq, h.total, List.length_append]
    exact Nat.le_add_right _ _
  · rw [h.produced_eq, h.total, List.length_append]
    exact Nat.add_le_add_left h.since.outstanding.2 _

theorem length_of_reading (h : InRounds f log rounds tail) (hReading : f.phase = .reading) :
    (produced log).length = f.total := by
  have hSince := h.since
  rw [hReading] at hSince
  obtain ⟨⟩ := hSince
  simp [h.produced_eq, h.total]

theorem read_nil_notMem_rounds (h : InRounds f log rounds tail) :
    RelayCall.read [] ∉ rounds.flatMap round := by
  intro hEnd
  obtain ⟨parts, hParts, hEnd⟩ := List.mem_flatMap.mp hEnd
  exact (h.whole parts hParts).1 (by simpa [round, read_nil_mem_passing] using hEnd)

theorem of_read_nil (h : InRounds f log rounds tail) (hEnd : RelayCall.read [] ∈ log) :
    delivered log = produced log ∧ ∀ failure, f.phase = .ended failure → failure = none ∧
      ∃ earlier done, log = earlier ++ [.read [], .flush done, .shutdown] := by
  rw [h.logged, List.mem_append] at hEnd
  obtain ⟨hProduced, hDelivered, hEnded⟩ :=
    h.since.of_read_nil (hEnd.resolve_left h.read_nil_notMem_rounds)
  refine ⟨?_, fun failure hFailure => ?_⟩
  · rw [h.delivered_eq, h.produced_eq, hDelivered, hProduced]
  · obtain ⟨hNone, done, rfl⟩ := hEnded failure hFailure
    exact ⟨hNone, _, done, h.logged⟩

end InRounds

end Switchyard.Proxy
