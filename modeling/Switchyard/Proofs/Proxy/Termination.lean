import Switchyard.Proofs.Proxy.Draining

/-! # How a relay ends

Beside a run of a relay stand the reads and writes that have failed in it before anyone had asked for
its end. There is at most one, for a failure asks for the end itself, and behind that nothing is read
or written any more. So it does not matter which direction the relay asks first for its failure.
-/
namespace Switchyard.Proxy
set_option autoImplicit false

/-- The failure of the read or the write that a direction in this phase waits for. A flush is the last
part of a write; one that only passes an end on is not. -/
def ForwardPhase.failure? (phase : ForwardPhase) (direction : Direction) (event : ForwardEvent) :
    Option Error :=
  match phase, event with
  | .reading, .readFailed cause => some (.read direction cause)
  | .writing .., .wrote 0 => some (.forward direction Forward.writeZero)
  | .writing .., .writeFailed cause => some (.forward direction cause)
  | .flushing _, .flushFailed cause => some (.forward direction cause)
  | _, _ => none

namespace Forward
variable {f : Forward} {shared : Shared} {event : ForwardEvent}

theorem react_of_failure {direction : Direction} {cause : Error} (hDirection : f.direction = direction)
    (hFailure : f.phase.failure? direction event = some cause) :
    f.react shared event = f.fail shared cause := by
  subst hDirection
  unfold ForwardPhase.failure? at hFailure
  unfold react
  split at hFailure <;> cases hFailure <;> simp [*]

theorem ended_of_react (direction : Direction) {cause : Error}
    (hSound : f.phase.failure? direction event = none)
    (hFailed : (f.react shared event).1.phase = .ended (some cause)) : f.phase = .ended (some cause) := by
  unfold ForwardPhase.failure? at hSound
  unfold react at hFailed
  split at hFailed
  case h_1 =>
    dsimp only at hFailed
    split at hFailed <;> cases hFailed
  case h_3 hPhase =>
    split at hFailed
    case isTrue hZero => simp [hPhase, hZero] at hSound
    case isFalse =>
      dsimp only at hFailed
      split at hFailed <;> cases hFailed
  case h_2 hPhase | h_4 hPhase | h_6 hPhase => simp [hPhase] at hSound
  case h_5 | h_7 | h_8 | h_9 => cases hFailed
  case h_10 => exact hFailed

/-- A direction that is passing an end on reads and writes no more. -/
theorem react_of_busy (hBusy : f.isCancellable = false) (shared : Shared) (event : ForwardEvent) :
    let after := (f.react shared event).1
    after.isCancellable = false ∧ after.taken = f.taken ∧ after.given = f.given ∧
      ∀ call ∈ f.answered event, call = .shutdown ∨ ∃ done, call = .flush done := by
  unfold isCancellable at hBusy
  cases hPhase : f.phase with
  | reading | writing | flushing => simp [hPhase] at hBusy
  | finalFlush | finalShutdown | ended =>
    cases event <;> simp [react, answered, isCancellable, hPhase]

/-- Once the end has been asked for, nothing is read or written any more. -/
theorem step_of_closing (f : Forward) (hClosing : shared.closing = true) (event : ForwardEvent)
    (log : List RelayCall) :
    let after := (f.step shared event).1
    after.isCancellable = false ∧ after.taken = f.taken ∧ after.given = f.given ∧
      ∃ calls, f.record shared event log = log ++ calls ∧
        ∀ call ∈ calls, call = .shutdown ∨ ∃ done, call = .flush done := by
  unfold step record
  rw [hClosing, Bool.true_and]
  cases hBusy : f.isCancellable with
  | true => exact ⟨rfl, rfl, rfl, [], (List.append_nil log).symm, nofun⟩
  | false =>
    obtain ⟨hAfter, hTaken, hGiven, hCalls⟩ := react_of_busy hBusy shared event
    exact ⟨hAfter, hTaken, hGiven, _, rfl, hCalls⟩

/-- A direction does not fail any more once the end has been asked for. -/
theorem failed_step_iff (hClosing : shared.closing = true) {cause : Error} :
    (f.step shared event).1.phase = .ended (some cause) ↔ f.phase = .ended (some cause) := by
  constructor
  · intro hFailed
    unfold step at hFailed
    rw [hClosing, Bool.true_and] at hFailed
    split at hFailed
    case isTrue => cases hFailed
    case isFalse hBusy =>
      refine ended_of_react f.direction ?_ hFailed
      unfold isCancellable at hBusy
      cases hPhase : f.phase <;> simp_all [ForwardPhase.failure?]
  · intro hFailed
    rw [step_of_ended hFailed]
    exact hFailed

theorem failure?_eq_some_iff {cause : Error} :
    f.failure? = some cause ↔ f.phase = .ended (some cause) := by
  unfold failure?
  cases f.phase <;> simp

/-- Nothing but the last flush and the shutdown of a writer can be in the way of the end. -/
theorem hasEnded_of_closing (hClosing : shared.closing = true) :
    let first := f.step shared .turn
    let second := first.1.step first.2 .flushed
    (second.1.step second.2 .shutdownDone).1.hasEnded = true := by
  cases hPhase : f.phase <;>
    simp [step, react, isCancellable, hasEnded, hPhase, hClosing]

end Forward

namespace Relay

/-- The read or write that an event fails, if nobody has asked for the end before. -/
def failure? (r : Relay) : RelayEvent → Option Error
  | .shutdown => none
  | .on direction event =>
    if r.shared.closing then none else (r.forward direction).phase.failure? direction event

/-- The reads and writes that fail in a run, in the order in which they do. -/
def failures (r : Relay) : List RelayEvent → List Error
  | [] => []
  | event :: events => (r.failure? event).toList ++ (r.step event).failures events

/-- The directions that have failed, and with what. -/
inductive FailedWith (r : Relay) : List Error → Prop
  | nothing (hSound : ∀ direction cause, (r.forward direction).phase ≠ .ended (some cause)) :
    FailedWith r []
  | one {direction : Direction} {cause : Error} (hClosing : r.shared.closing = true)
    (hFailed : (r.forward direction).phase = .ended (some cause))
    (hOther : ∀ other, other ≠ direction → ∀ cause, (r.forward other).phase ≠ .ended (some cause)) :
    FailedWith r [cause]

namespace FailedWith
variable {r r' : Relay} {failures : List Error}

theorem of_same (h : r.FailedWith failures)
    (hClosing : r.shared.closing = true → r'.shared.closing = true)
    (hSame : ∀ direction cause, (r'.forward direction).phase = .ended (some cause) ↔
      (r.forward direction).phase = .ended (some cause)) : r'.FailedWith failures := by
  cases h with
  | nothing hSound =>
    refine .nothing fun direction cause hFailed => ?_
    exact hSound direction cause ((hSame direction cause).mp hFailed)
  | one hAsked hFailed hOther =>
    refine .one (hClosing hAsked) ((hSame _ _).mpr hFailed) fun other hNe cause hAlso => ?_
    exact hOther other hNe cause ((hSame other cause).mp hAlso)

theorem on (h : r.FailedWith failures) (acting : Direction) (answer : ForwardEvent)
    (hDirection : (r.forward acting).direction = acting) :
    (r.step (.on acting answer)).FailedWith
      (failures ++ (r.failure? (.on acting answer)).toList) := by
  have hSelf := r.step_forward_self acting answer
  have hOthers {other : Direction} (hNe : other ≠ acting) :
      (r.step (.on acting answer)).forward other = r.forward other :=
    r.step_forward_of_ne acting answer hNe.symm
  cases hClosing : r.shared.closing with
  | true =>
    rw [failure?, hClosing, if_pos rfl, Option.toList_none, List.append_nil]
    refine h.of_same (fun _ => ?_) fun direction cause => ?_
    · rw [r.step_shared]
      exact Forward.closing_step hClosing _ answer
    · by_cases hActing : direction = acting
      · rw [hActing, hSelf]
        exact Forward.failed_step_iff hClosing
      · rw [hOthers hActing]
  | false =>
    have hStep : (r.forward acting).step r.shared answer = (r.forward acting).react r.shared answer := by
      simp [Forward.step, hClosing]
    rw [hStep] at hSelf
    cases h with
    | one hAsked => cases hClosing.symm.trans hAsked
    | nothing hSound =>
      rw [failure?, hClosing, List.nil_append]
      cases hFailure : (r.forward acting).phase.failure? acting answer with
      | some cause =>
        have hReact : (r.forward acting).react r.shared answer = _ :=
          Forward.react_of_failure hDirection hFailure
        have hEnded : ((r.step (.on acting answer)).forward acting).phase = .ended (some cause) := by
          rw [hSelf, hReact]
          rfl
        refine .one ?_ hEnded fun other hNe cause' => ?_
        · rw [r.step_shared, hStep, hReact]
          rfl
        · rw [hOthers hNe]
          exact hSound other cause'
      | none =>
        refine .nothing fun direction cause hFailed => ?_
        by_cases hActing : direction = acting
        · rw [hActing, hSelf] at hFailed
          exact hSound acting cause (Forward.ended_of_react acting hFailure hFailed)
        · rw [hOthers hActing] at hFailed
          exact hSound direction cause hFailed

theorem outcome?_eq_error_iff (h : r.FailedWith failures) (cause : Error) :
    r.outcome? = some (.error cause) ↔ r.hasEnded = true ∧ failures.head? = some cause := by
  have hFirst : (r.upstream.failure?.orElse fun _ => r.downstream.failure?) = failures.head? := by
    have hNone {direction : Direction}
        (hSound : ∀ cause, (r.forward direction).phase ≠ .ended (some cause)) :
        (r.forward direction).failure? = none := by
      rw [Option.eq_none_iff_forall_ne_some]
      intro cause hFailure
      exact hSound cause (Forward.failure?_eq_some_iff.mp hFailure)
    cases h with
    | nothing hSound =>
      have hUp : r.upstream.failure? = none := hNone (hSound .upstream)
      have hDown : r.downstream.failure? = none := hNone (hSound .downstream)
      rw [hUp, hDown]
      rfl
    | @one direction cause _ hFailed hOther =>
      have hFailure := Forward.failure?_eq_some_iff.mpr hFailed
      cases direction with
      | upstream =>
        have hUp : r.upstream.failure? = some cause := hFailure
        rw [hUp]
        rfl
      | downstream =>
        have hDown : r.downstream.failure? = some cause := hFailure
        have hUp : r.upstream.failure? = none := hNone (hOther .upstream nofun)
        rw [hUp, hDown]
        rfl
  unfold outcome?
  rw [hFirst]
  cases r.hasEnded <;> cases failures.head? <;> simp

theorem closing_of_failed (h : r.FailedWith failures) {direction : Direction} {cause : Error}
    (hFailed : (r.forward direction).phase = .ended (some cause)) : r.shared.closing = true := by
  cases h with
  | nothing hSound => exact absurd hFailed (hSound direction cause)
  | one hClosing => exact hClosing

theorem closing_of_first (h : r.FailedWith failures) {cause : Error}
    (hFirst : failures.head? = some cause) : r.shared.closing = true := by
  cases h with
  | nothing => cases hFirst
  | one hClosing => exact hClosing

theorem not_both (h : r.FailedWith failures) {first second : Error}
    (hUp : r.upstream.phase = .ended (some first)) : r.downstream.phase ≠ .ended (some second) := by
  intro hDown
  cases h with
  | nothing hSound => exact hSound .upstream first hUp
  | @one direction _ _ _ hOther =>
    cases direction with
    | upstream => exact hOther .downstream nofun second hDown
    | downstream => exact hOther .upstream nofun first hUp

theorem length_le (h : r.FailedWith failures) : failures.length ≤ 1 := by
  cases h with
  | nothing => exact Nat.zero_le 1
  | one => exact Nat.le_refl 1

end FailedWith

/-- What the transport has to answer to a direction that nobody waits for any more. -/
def dismissal (direction : Direction) : List RelayEvent :=
  [.on direction .turn, .on direction .flushed, .on direction .shutdownDone]

def farewell : List RelayEvent := dismissal .upstream ++ dismissal .downstream

theorem hasEnded_run_farewell {r : Relay} (hClosing : r.shared.closing = true) :
    (r.run farewell).hasEnded = true := by
  have hToken {f : Forward} {shared : Shared} (h : shared.closing = true) :
      let first := f.step shared .turn
      let second := first.1.step first.2 .flushed
      (second.1.step second.2 .shutdownDone).2.closing = true :=
    Forward.closing_step (Forward.closing_step (Forward.closing_step h _ _) _ _) _ _
  rw [hasEnded, Bool.and_eq_true]
  constructor
  · exact Forward.hasEnded_of_closing hClosing
  · exact Forward.hasEnded_of_closing (hToken hClosing)

end Relay

/-- Between two moments a direction has read and written nothing. If it still waits to read or to write,
it has only been waiting. -/
structure Still (before after : Forward) (earlier later : List RelayCall) : Prop where
  waiting : after.isCancellable = true → after = before
  taken : after.taken = before.taken
  given : after.given = before.given
  calls : ∃ calls, later = earlier ++ calls ∧
    ∀ call ∈ calls, call = .shutdown ∨ ∃ done, call = .flush done

theorem Still.step {before f : Forward} {earlier log : List RelayCall} (h : Still before f earlier log)
    {shared : Shared} (hClosing : shared.closing = true) (event : ForwardEvent) :
    Still before (f.step shared event).1 earlier (f.record shared event log) := by
  obtain ⟨hBusy, hTaken, hGiven, calls, hRecord, hCalls⟩ :=
    f.step_of_closing hClosing event log
  obtain ⟨old, rfl, hOld⟩ := h.calls
  constructor
  · intro hWaiting
    cases hBusy.symm.trans hWaiting
  · exact hTaken.trans h.taken
  · exact hGiven.trans h.given
  · refine ⟨old ++ calls, ?_, ?_⟩
    · rw [hRecord, List.append_assoc]
    · intro call hCall
      exact (List.mem_append.mp hCall).elim (hOld call) (hCalls call)

/-- Since the first moment the end has been asked for, and both directions are still. -/
structure Quiet (before after : Traffic) : Prop where
  closing : after.relay.shared.closing = true
  still : ∀ direction, Still (before.relay.forward direction) (after.relay.forward direction)
    (before.logs direction) (after.logs direction)

namespace Quiet
variable {before t : Traffic}

theorem refl (hClosing : t.relay.shared.closing = true) : Quiet t t where
  closing := hClosing
  still _ := ⟨fun _ => rfl, rfl, rfl, [], (List.append_nil _).symm, nofun⟩

theorem step (h : Quiet before t) (event : RelayEvent) : Quiet before (t.step event) := by
  cases event with
  | shutdown =>
    constructor
    · rfl
    · intro direction
      cases direction with
      | upstream => exact h.still .upstream
      | downstream => exact h.still .downstream
  | on acting answer =>
    constructor
    · rw [Traffic.step, t.relay.step_shared]
      exact Forward.closing_step h.closing _ answer
    · intro direction
      by_cases hActing : acting = direction
      · subst hActing
        have hStill := (h.still acting).step h.closing answer
        rw [← Relay.step_forward_self] at hStill
        simpa only [Traffic.step, if_pos] using hStill
      · simp only [Traffic.step, if_neg hActing, Relay.step_forward_of_ne _ _ _ hActing]
        exact h.still direction

theorem run (h : Quiet before t) (events : List RelayEvent) : Quiet before (t.run events) := by
  induction events generalizing t with
  | nil => exact h
  | cons event events ih => exact ih (h.step event)

end Quiet

namespace Traffic
variable {limit : Nat} {t : Traffic} {failures : List Error}

/-- Whoever has ended has left the token behind. -/
def Parts (t : Traffic) : Prop :=
  ∀ direction, (t.relay.forward direction).phase = .ended none → t.relay.shared.closing = true

theorem Parts.step (h : Parts t) (event : RelayEvent) : Parts (t.step event) := by
  intro direction hEnded
  cases event with
  | shutdown => rfl
  | on acting answer =>
    simp only [Traffic.step, Relay.step_shared] at hEnded ⊢
    by_cases hActing : acting = direction
    · subst hActing
      rw [Relay.step_forward_self] at hEnded
      rcases Forward.closing_of_ended_step hEnded with hOld | hToken
      · exact Forward.closing_step (h acting hOld) _ answer
      · exact hToken
    · rw [Relay.step_forward_of_ne _ _ _ hActing] at hEnded
      exact Forward.closing_step (h direction hEnded) _ answer

theorem Parts.run (h : Parts t) (events : List RelayEvent) : Parts (t.run events) := by
  induction events generalizing t with
  | nil => exact h
  | cons event events ih => exact ih (h.step event)

theorem failedWith_step (h : t.relay.FailedWith failures) (hOrder : AllInOrder limit t)
    (event : RelayEvent) :
    (t.step event).relay.FailedWith (failures ++ (t.relay.failure? event).toList) := by
  cases event with
  | shutdown =>
    rw [Relay.failure?, Option.toList_none, List.append_nil]
    refine h.of_same (fun _ => rfl) fun direction cause => ?_
    cases direction <;> exact Iff.rfl
  | on acting answer => exact h.on acting answer (hOrder acting).direction_eq

theorem failedWith_run (h : t.relay.FailedWith failures) (hOrder : AllInOrder limit t)
    (events : List RelayEvent) :
    (t.run events).relay.FailedWith (failures ++ t.relay.failures events) := by
  induction events generalizing t failures with
  | nil =>
    rw [Relay.failures, List.append_nil]
    exact h
  | cons event events ih =>
    rw [Relay.failures, ← List.append_assoc]
    exact ih (failedWith_step h hOrder event) (hOrder.step event)

end Traffic

/-- However the two directions of a relay take turns and whenever its end is asked for: a direction that
has ended has asked for the end too, and from then on nothing is read or written. At most one direction
fails. A relay that has ended has failed just if a read or a write failed before the end was asked for,
and it tells the first of these; it does end once the last flush and shutdown are answered. -/
theorem relay_ends_with_its_first_failure (bufferSize : Nat) (closing : Bool)
    (events : List RelayEvent) :
    let traffic := (Traffic.start bufferSize closing).run events
    let relay := traffic.relay
    let failures := (Relay.new bufferSize closing).failures events
    relay = (Relay.new bufferSize closing).run events ∧
    (∀ direction failure, (relay.forward direction).phase = .ended failure →
      relay.shared.closing = true) ∧
    (relay.shared.closing = true →
      (∀ later, Quiet traffic (traffic.run later)) ∧ (relay.run Relay.farewell).hasEnded = true) ∧
    (∀ first second, relay.upstream.phase = .ended (some first) →
      relay.downstream.phase ≠ .ended (some second)) ∧
    failures.length ≤ 1 ∧
    (∀ cause, relay.outcome? = some (.error cause) ↔
      relay.hasEnded = true ∧ failures.head? = some cause) ∧
    ∀ cause, failures.head? = some cause →
      (relay.run Relay.farewell).outcome? = some (.error cause) := by
  intro traffic relay failures
  have hOrder := Traffic.AllInOrder.start bufferSize closing
  have hSound : (Traffic.start bufferSize closing).relay.FailedWith [] := by
    refine .nothing fun direction cause hFailed => ?_
    cases direction <;> cases hFailed
  have hParts : (Traffic.start bufferSize closing).Parts := by
    intro direction hEnded
    cases direction <;> cases hEnded
  have hFailed : relay.FailedWith failures := Traffic.failedWith_run hSound hOrder events
  have hRun : relay = (Relay.new bufferSize closing).run events := Traffic.run_relay _ events
  refine ⟨hRun, ?_, ?_, ?_, hFailed.length_le, hFailed.outcome?_eq_error_iff, ?_⟩
  · intro direction failure hEnded
    cases failure with
    | none => exact hParts.run events direction hEnded
    | some cause => exact hFailed.closing_of_failed hEnded
  · intro hClosing
    exact ⟨(Quiet.refl hClosing).run, Relay.hasEnded_run_farewell hClosing⟩
  · intro first second hUp
    exact hFailed.not_both hUp
  · intro cause hFirst
    have hEnd := Traffic.failedWith_run hFailed (hOrder.run events) Relay.farewell
    rw [Traffic.run_relay] at hEnd
    refine (hEnd.outcome?_eq_error_iff cause).mpr ⟨?_, ?_⟩
    · exact Relay.hasEnded_run_farewell (hFailed.closing_of_first hFirst)
    · rw [List.head?_append, hFirst, Option.some_or]

end Switchyard.Proxy
