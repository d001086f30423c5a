import Switchyard.Proofs.Proxy.Fidelity

/-! # What a relay leaves behind

The end that one direction passes on stops the other one, which may be in the middle of a chunk. When
nobody has asked for the end of a relay and nothing has failed, that chunk is all that can be missing.
-/
namespace Switchyard.Proxy
set_option autoImplicit false

/-- What a direction has done since its last whole round when it has ended without a failure. -/
inductive Stopped (limit : Nat) : List RelayCall → Prop
  | passedOn (done : Bool) : Stopped limit [.read [], .flush done, .shutdown]
  | resting : Stopped limit []
  | midway {parts : List Bytes} {left : Bytes} (hSome : parts.flatten ++ left ≠ [])
    (hFits : (parts.flatten ++ left).length ≤ limit) :
    Stopped limit (passing (parts.flatten ++ left) parts)

def Halts (f : Forward) (log : List RelayCall) : Prop :=
  f.phase = .ended none → ∃ rounds tail, InRounds f log rounds tail ∧ Stopped f.limit tail

namespace Forward
variable {f : Forward} {log tail : List RelayCall} {rounds : List (List Bytes)}

theorem stopped_of_cancellable (h : InRounds f log rounds tail) (hCancellable : f.isCancellable = true) :
    Stopped f.limit tail := by
  have hSince := h.since
  unfold isCancellable at hCancellable
  generalize f.phase = phase at hSince hCancellable
  cases hSince with
  | reading => exact .resting
  | writing hLeft hFits => exact .midway (by simp [hLeft]) hFits
  | @flushing parts hSome hFits =>
    have hMidway : Stopped f.limit (passing (parts.flatten ++ []) parts) :=
      .midway (by simpa using hSome) (by simpa using hFits)
    rwa [List.append_nil] at hMidway
  | ending | closing | closed | cut => cases hCancellable

theorem react_of_ended {failure : Option Error} (hEnded : f.phase = .ended failure) (shared : Shared)
    (event : ForwardEvent) : f.react shared event = (f, shared) ∧ f.answered event = [] := by
  cases event <;> simp [react, answered, hEnded]

theorem step_of_ended {failure : Option Error} (hEnded : f.phase = .ended failure) (shared : Shared)
    (event : ForwardEvent) : f.step shared event = (f, shared) := by
  rw [step, if_neg (by simp [isCancellable, hEnded]), (react_of_ended hEnded shared event).1]

/-- A direction asks for the end of the relay when it has passed its own end on or has failed. -/
theorem react_token (f : Forward) (shared : Shared) (event : ForwardEvent) :
    (f.phase = .finalShutdown ∧ event = .shutdownDone ∧
      (f.react shared event).2.closing = true) ∨
    (∃ cause, (f.react shared event).1.phase = .ended (some cause) ∧
      (f.react shared event).2.closing = true) ∨
    ((f.react shared event).2.closing = shared.closing ∧
      ((f.react shared event).1.phase = .ended none → f.phase = .ended none)) := by
  unfold react
  split
  case h_1 hPhase =>
    refine .inr (.inr ?_)
    dsimp only
    split <;> exact ⟨rfl, nofun⟩
  case h_3 hPhase =>
    split
    · exact .inr (.inl ⟨_, rfl, rfl⟩)
    · refine .inr (.inr ⟨rfl, fun hEnded => ?_⟩)
      dsimp only at hEnded
      split at hEnded <;> cases hEnded
  case h_2 | h_4 | h_6 => exact .inr (.inl ⟨_, rfl, rfl⟩)
  case h_5 | h_7 | h_8 => exact .inr (.inr ⟨rfl, nofun⟩)
  case h_9 hPhase => exact .inl ⟨hPhase, rfl, rfl⟩
  case h_10 => exact .inr (.inr ⟨rfl, id⟩)

theorem halts_step (h : InRounds f log rounds tail) (hHalts : Halts f log) (shared : Shared)
    (event : ForwardEvent) : Halts (f.step shared event).1 (f.record shared event log) := by
  unfold step record
  split
  · rename_i hCut
    have hCancellable := (Bool.and_eq_true_iff.mp hCut).2
    have hStopped := stopped_of_cancellable h hCancellable
    exact fun _ => ⟨rounds, tail, h.cancel hCancellable, hStopped⟩
  · intro hEnded
    rcases f.react_token shared event with ⟨hPhase, rfl, -⟩ | ⟨cause, hFailed, -⟩ | ⟨-, hOld⟩
    · have hSince := h.since
      rw [hPhase] at hSince
      cases hSince with
      | closing done =>
        have hClosed : InRounds { f with phase := .ended none } (log ++ [.shutdown]) rounds
            [.read [], .flush done, .shutdown] :=
          h.extend rfl rfl (List.append_nil _).symm (List.append_nil _).symm (.closed done)
        simp only [react, answered, hPhase]
        exact ⟨rounds, _, hClosed, .passedOn done⟩
    · cases hFailed.symm.trans hEnded
    · obtain ⟨hReact, hAnswered⟩ := f.react_of_ended (hOld hEnded) shared event
      rw [hReact, hAnswered, List.append_nil]
      exact hHalts (hOld hEnded)

theorem closing_step {shared : Shared} (hClosing : shared.closing = true) (f : Forward)
    (event : ForwardEvent) : (f.step shared event).2.closing = true := by
  unfold step
  split
  · exact hClosing
  · rcases f.react_token shared event with ⟨-, -, hToken⟩ | ⟨cause, -, hToken⟩ | ⟨hSame, -⟩
    · exact hToken
    · exact hToken
    · exact hSame.trans hClosing

theorem closing_of_ended_step {shared : Shared} {event : ForwardEvent}
    (hEnded : (f.step shared event).1.phase = .ended none) :
    f.phase = .ended none ∨ (f.step shared event).2.closing = true := by
  unfold step at hEnded ⊢
  split at hEnded
  · rename_i hCut
    rw [if_pos hCut]
    exact .inr (Bool.and_eq_true_iff.mp hCut).1
  · rename_i hFree
    rw [if_neg hFree]
    rcases f.react_token shared event with ⟨-, -, hToken⟩ | ⟨cause, -, hToken⟩ | ⟨-, hOld⟩
    · exact .inr hToken
    · exact .inr hToken
    · exact .inl (hOld hEnded)

/-- Whoever asks for the end has read its own or has failed. -/
theorem blame_step (h : InRounds f log rounds tail) {shared : Shared} {event : ForwardEvent}
    (hToken : (f.step shared event).2.closing = true) :
    shared.closing = true ∨ RelayCall.read [] ∈ f.record shared event log ∨
      ∃ cause, (f.step shared event).1.phase = .ended (some cause) := by
  unfold step record at *
  split at hToken
  · exact .inl hToken
  · rename_i hFree
    rw [if_neg hFree, if_neg hFree]
    rcases f.react_token shared event with ⟨hPhase, -, -⟩ | ⟨cause, hFailed, -⟩ | ⟨hSame, -⟩
    · have hSince := h.since
      rw [hPhase] at hSince
      cases hSince with
      | closing done => exact .inr (.inl (by simp [h.logged]))
    · exact .inr (.inr ⟨cause, hFailed⟩)
    · exact .inl (hSame.symm.trans hToken)

theorem log_prefix_record (f : Forward) (shared : Shared) (event : ForwardEvent)
    (log : List RelayCall) : log <+: f.record shared event log := by
  unfold record
  split
  · exact List.prefix_refl _
  · exact List.prefix_append _ _

end Forward

theorem InRounds.read_nil_mem_iff {f : Forward} {log tail : List RelayCall} {rounds : List (List Bytes)}
    (h : InRounds f log rounds tail) : RelayCall.read [] ∈ log ↔ RelayCall.read [] ∈ tail := by
  rw [h.logged, List.mem_append, or_iff_right h.read_nil_notMem_rounds]

namespace Traffic
variable {limit : Nat} {t : Traffic}

/-- Nobody else has asked for the end of the relay. -/
structure Unforced (t : Traffic) : Prop where
  halts : ∀ direction, Halts (t.relay.forward direction) (t.logs direction)
  closing : ∀ direction, (t.relay.forward direction).phase = .ended none →
    t.relay.shared.closing = true
  blame : t.relay.shared.closing = true → ∃ direction, RelayCall.read [] ∈ t.logs direction ∨
    ∃ cause, (t.relay.forward direction).phase = .ended (some cause)

theorem Unforced.start (bufferSize : Nat) : Unforced (.start bufferSize false) where
  halts direction hEnded := by cases direction <;> cases hEnded
  closing direction hEnded := by cases direction <;> cases hEnded
  blame := nofun

theorem Unforced.on (h : Unforced t) (hOrder : AllInOrder limit t) (acting : Direction)
    (answer : ForwardEvent) : Unforced (t.step (.on acting answer)) := by
  obtain ⟨rounds, tail, hRounds⟩ := (hOrder acting).inRounds
  have hSelf := Relay.step_forward_self t.relay acting answer
  have hOther {direction : Direction} (hNe : acting ≠ direction) :=
    Relay.step_forward_of_ne t.relay acting answer hNe
  have hShared := Relay.step_shared t.relay acting answer
  constructor
  · intro direction
    by_cases hActing : acting = direction
    · subst hActing
      simpa only [Traffic.step, if_pos, hSelf] using Forward.halts_step hRounds (h.halts acting) _ answer
    · simpa only [Traffic.step, if_neg hActing, hOther hActing] using h.halts direction
  · intro direction hEnded
    simp only [Traffic.step, hShared] at hEnded ⊢
    by_cases hActing : acting = direction
    · subst hActing
      rw [hSelf] at hEnded
      rcases Forward.closing_of_ended_step hEnded with hOld | hToken
      · exact Forward.closing_step (h.closing acting hOld) _ answer
      · exact hToken
    · rw [hOther hActing] at hEnded
      exact Forward.closing_step (h.closing direction hEnded) _ answer
  · intro hToken
    simp only [Traffic.step, hShared] at hToken ⊢
    rcases Forward.blame_step hRounds hToken with hOld | hNew
    · obtain ⟨direction, hBlame⟩ := h.blame hOld
      refine ⟨direction, ?_⟩
      by_cases hActing : acting = direction
      · subst hActing
        rw [if_pos rfl, hSelf]
        refine hBlame.imp (fun hRead => (Forward.log_prefix_record ..).subset hRead) ?_
        rintro ⟨cause, hFailed⟩
        exact ⟨cause, by rw [Forward.step_of_ended hFailed, hFailed]⟩
      · rw [if_neg hActing, hOther hActing]
        exact hBlame
    · refine ⟨acting, ?_⟩
      rw [if_pos rfl, hSelf]
      exact hNew

theorem Unforced.run (h : Unforced t) (hOrder : AllInOrder limit t) {events : List RelayEvent}
    (hUnasked : RelayEvent.shutdown ∉ events) : Unforced (t.run events) := by
  induction events generalizing t with
  | nil => exact h
  | cons event events ih =>
    rw [List.mem_cons, not_or] at hUnasked
    cases event with
    | shutdown => exact absurd rfl hUnasked.1
    | on acting answer => exact ih (h.on hOrder acting answer) (hOrder.on acting answer) hUnasked.2

end Traffic

def RelayEvent.fails : RelayEvent → Bool
  | .on _ (.readFailed _) | .on _ (.writeFailed _) | .on _ (.flushFailed _) | .on _ (.wrote 0) => true
  | _ => false

/-- A relay may have read bytes that it never passes on, though nothing fails and nobody asks for its
end: the other direction's end comes while they are being written. -/
theorem not_drained_on_both_sides : ¬ ∀ (bufferSize : Nat) (events : List RelayEvent)
    (stats : RelayStats), RelayEvent.shutdown ∉ events → (∀ event ∈ events, event.fails = false) →
    let traffic := (Traffic.start bufferSize false).run events
    traffic.relay.outcome? = some (.ok stats) →
      ∀ direction, delivered (traffic.logs direction) = produced (traffic.logs direction) := by
  intro hDrained
  have hCut := hDrained 2
    [.on .upstream (.read [1, 2]), .on .upstream (.wrote 1), .on .downstream (.read []),
      .on .downstream .flushed, .on .downstream .shutdownDone, .on .upstream .turn]
    { upstream := 0, downstream := 0 } (by decide) (by decide) (by decide) .upstream
  revert hCut
  decide

/-- A relay that has ended well, and not because it was asked to, has read the end of a side. What it
has read from a side whose end it has read is written and flushed. From the other side the last chunk
may be missing, or a part of it, if it was being written when the end was passed on. -/
theorem drained_but_for_a_chunk (bufferSize : Nat) (events : List RelayEvent) (stats : RelayStats)
    (hUnasked : RelayEvent.shutdown ∉ events)
    (hOk : ((Traffic.start bufferSize false).run events).relay.outcome? = some (.ok stats)) :
    let logs := ((Traffic.start bufferSize false).run events).logs
    (∃ direction, RelayCall.read [] ∈ logs direction) ∧
    ∀ direction,
      (RelayCall.read [] ∈ logs direction → delivered (logs direction) = produced (logs direction) ∧
        (produced (logs direction)).length = stats.moved direction) ∧
      ∃ (rounds : List (List Bytes)) (tail : List RelayCall),
        logs direction = rounds.flatMap round ++ tail ∧
        produced (logs direction) = rounds.flatten.flatten ++ produced tail ∧
        stats.moved direction = rounds.flatten.flatten.length ∧
        (tail = [] ∨ (∃ done, tail = [.read [], .flush done, .shutdown]) ∨
          ∃ (chunk : Bytes) (parts : List Bytes), tail = passing chunk parts ∧
            parts.flatten <+: chunk ∧ chunk.length ≤ max bufferSize 1 ∧
            RelayCall.read [] ∉ logs direction ∧
            ∃ other, other ≠ direction ∧ RelayCall.read [] ∈ logs other) := by
  intro logs
  have hOrder := Traffic.AllInOrder.start bufferSize false
  have hUnforced := (Traffic.Unforced.start bufferSize).run hOrder hUnasked
  have hEnded := Relay.moved_of_outcome hOk
  have hOnTheirOwn : ∃ direction, RelayCall.read [] ∈ logs direction := by
    obtain ⟨direction, hRead | ⟨cause, hFailed⟩⟩ :=
      hUnforced.blame (hUnforced.closing .upstream (hEnded .upstream).1)
    · exact ⟨direction, hRead⟩
    · cases hFailed.symm.trans (hEnded direction).1
  refine ⟨hOnTheirOwn, fun direction => ?_⟩
  obtain ⟨hPhase, hMoved⟩ := hEnded direction
  obtain ⟨rounds, tail, hRounds, hStopped⟩ := hUnforced.halts direction hPhase
  have hLimit := (hOrder.run events direction).limit_eq
  constructor
  · intro hRead
    obtain ⟨hNothing, -, -⟩ := hRounds.since.of_read_nil (hRounds.read_nil_mem_iff.mp hRead)
    have hWhole : produced (logs direction) = rounds.flatten.flatten ++ [] :=
      hNothing ▸ hRounds.produced_eq
    refine ⟨(hRounds.of_read_nil hRead).1, ?_⟩
    rw [hWhole, List.append_nil, hMoved, hRounds.total]
  · refine ⟨rounds, tail, hRounds.logged, hRounds.produced_eq, hMoved.trans hRounds.total, ?_⟩
    cases hStopped with
    | passedOn done => exact .inr (.inl ⟨done, rfl⟩)
    | resting => exact .inl rfl
    | @midway parts left hSome hFits =>
      have hUnread : RelayCall.read [] ∉ logs direction := fun hRead =>
        hSome (read_nil_mem_passing.mp (hRounds.read_nil_mem_iff.mp hRead))
      obtain ⟨other, hRead⟩ := hOnTheirOwn
      have hOther : other ≠ direction := by
        rintro rfl
        exact hUnread hRead
      exact .inr (.inr ⟨_, parts, rfl, List.prefix_append _ _, hLimit ▸ hFits, hUnread, other, hOther,
        hRead⟩)

/-- The other side ends while the second chunk is being written. -/
theorem drained_but_for_a_chunk_midway :
    let events : List RelayEvent :=
      [.on .upstream (.read [1, 2]), .on .upstream (.wrote 2), .on .upstream .flushed,
        .on .upstream (.read [3, 4]), .on .upstream (.wrote 1), .on .downstream (.read []),
        .on .downstream .flushed, .on .downstream .shutdownDone, .on .upstream .turn]
    let traffic := (Traffic.start 2 false).run events
    RelayEvent.shutdown ∉ events ∧
    traffic.relay.outcome? = some (.ok { upstream := 2, downstream := 0 }) ∧
    RelayCall.read [] ∈ traffic.logs .downstream ∧
    delivered (traffic.logs .downstream) = produced (traffic.logs .downstream) ∧
    produced (traffic.logs .upstream) = [1, 2, 3, 4] ∧ delivered (traffic.logs .upstream) = [1, 2, 3] := by
  intro events traffic
  have hUnasked : RelayEvent.shutdown ∉ events := by decide
  have hOk : traffic.relay.outcome? = some (.ok { upstream := 2, downstream := 0 }) := by decide
  obtain ⟨-, hSides⟩ := drained_but_for_a_chunk 2 events _ hUnasked hOk
  have hRead : RelayCall.read [] ∈ traffic.logs .downstream := by decide
  exact ⟨hUnasked, hOk, hRead, ((hSides .downstream).1 hRead).1, by decide, by decide⟩

end Switchyard.Proxy
