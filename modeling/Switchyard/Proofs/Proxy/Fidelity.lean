import Switchyard.Proofs.Proxy.Rounds

/-! # What a relay passes on

Both directions of a relay keep to their rounds, whatever comes over them and over the token that they
share. What a direction has counted, the metric included, is what its whole rounds have moved.
-/
namespace Switchyard.Proxy
set_option autoImplicit false

def RelayStats.moved (stats : RelayStats) : Direction → Nat
  | .upstream => stats.upstream
  | .downstream => stats.downstream

/-- A relay with the logs of its directions. -/
structure Traffic where
  relay : Relay
  logs : Direction → List RelayCall

namespace Traffic

def start (bufferSize : Nat) (closing : Bool) : Traffic :=
  { relay := .new bufferSize closing, logs := fun _ => [] }

def step (t : Traffic) (event : RelayEvent) : Traffic :=
  { relay := t.relay.step event
    logs := fun direction =>
      match event with
      | .shutdown => t.logs direction
      | .on acting answer =>
        if acting = direction then
          (t.relay.forward direction).record t.relay.shared answer (t.logs direction)
        else t.logs direction }

def run (t : Traffic) (events : List RelayEvent) : Traffic := events.foldl step t

theorem run_relay (t : Traffic) (events : List RelayEvent) :
    (t.run events).relay = t.relay.run events := by
  induction events generalizing t with
  | nil => rfl
  | cons event events ih => exact ih (t.step event)

end Traffic

section Step
variable (r : Relay) (direction : Direction) (event : ForwardEvent)

theorem Relay.step_forward_self :
    (r.step (.on direction event)).forward direction =
      ((r.forward direction).step r.shared event).1 := by
  cases direction <;> rfl

theorem Relay.step_forward_of_ne {other : Direction} (hOther : direction ≠ other) :
    (r.step (.on direction event)).forward other = r.forward other := by
  cases direction <;> cases other <;> first | rfl | exact absurd rfl hOther

theorem Relay.step_shared :
    (r.step (.on direction event)).shared = ((r.forward direction).step r.shared event).2 := by
  cases direction <;> rfl

end Step

/-- A direction counts a chunk together with the metric, and otherwise neither changes. -/
inductive Counts (f : Forward) (shared : Shared) : Forward × Shared → Prop
  | nothing {phase : ForwardPhase} {taken given : Bytes} {closing : Bool} :
    Counts f shared ({ f with phase, taken, given }, { shared with closing })
  | chunk (size : Nat) {phase : ForwardPhase} :
    Counts f shared ({ f with phase, total := f.total + size },
      { shared with metrics := shared.metrics.add (.relayedBytes f.direction) size })

theorem Forward.react_counts (f : Forward) (shared : Shared) (event : ForwardEvent) :
    Counts f shared (f.react shared event) := by
  unfold Forward.react
  split
  case h_1 =>
    dsimp only
    split <;> exact .nothing
  case h_3 => split <;> exact .nothing
  case h_5 size _ => exact .chunk size
  all_goals exact .nothing

theorem Forward.step_counts (f : Forward) (shared : Shared) (event : ForwardEvent) :
    Counts f shared (f.step shared event) := by
  unfold Forward.step
  split
  · exact .nothing
  · exact f.react_counts shared event

namespace Counts
variable {f : Forward} {shared : Shared} {result : Forward × Shared}

theorem keeps (h : Counts f shared result) :
    result.1.direction = f.direction ∧ result.1.limit = f.limit := by
  cases h <;> exact ⟨rfl, rfl⟩

theorem metered_self (h : Counts f shared result)
    (hMetered : shared.metrics.get (.relayedBytes f.direction) = f.total) :
    result.2.metrics.get (.relayedBytes f.direction) = result.1.total := by
  cases h with
  | nothing => exact hMetered
  | chunk size => simp [hMetered]

theorem metered_other (h : Counts f shared result) {other : Direction} (hOther : f.direction ≠ other) :
    result.2.metrics.get (.relayedBytes other) = shared.metrics.get (.relayedBytes other) := by
  cases h with
  | nothing => rfl
  | chunk size => exact Metrics.get_add_of_ne _ (fun hSame => hOther (Metric.relayedBytes.inj hSame)) _

end Counts

/-- A direction keeps to its rounds, and its metric has what it has counted. -/
structure InOrder (limit : Nat) (direction : Direction) (f : Forward) (log : List RelayCall)
    (metrics : Metrics) : Prop where
  inRounds : ∃ rounds tail, InRounds f log rounds tail
  limit_eq : f.limit = limit
  direction_eq : f.direction = direction
  metered : metrics.get (.relayedBytes direction) = f.total

theorem InOrder.step {limit : Nat} {direction : Direction} {f : Forward} {log : List RelayCall}
    {shared : Shared} (h : InOrder limit direction f log shared.metrics) (event : ForwardEvent) :
    InOrder limit direction (f.step shared event).1 (f.record shared event log)
      (f.step shared event).2.metrics := by
  obtain ⟨⟨rounds, tail, hRounds⟩, rfl, rfl, hMetered⟩ := h
  have hCounts := f.step_counts shared event
  exact ⟨hRounds.step shared event, hCounts.keeps.2, hCounts.keeps.1, hCounts.metered_self hMetered⟩

namespace Traffic
variable {limit : Nat} {t : Traffic}

def AllInOrder (limit : Nat) (t : Traffic) : Prop :=
  ∀ direction, InOrder limit direction (t.relay.forward direction) (t.logs direction)
    t.relay.shared.metrics

theorem AllInOrder.start (bufferSize : Nat) (closing : Bool) :
    AllInOrder (max bufferSize 1) (.start bufferSize closing) := by
  intro direction
  cases direction with
  | upstream => exact ⟨⟨[], [], .start .upstream bufferSize⟩, rfl, rfl, rfl⟩
  | downstream => exact ⟨⟨[], [], .start .downstream bufferSize⟩, rfl, rfl, rfl⟩

theorem AllInOrder.on (h : AllInOrder limit t) (acting : Direction) (answer : ForwardEvent) :
    AllInOrder limit (t.step (.on acting answer)) := by
  intro direction
  by_cases hActing : acting = direction
  · subst hActing
    have hStep := (h acting).step answer
    rw [← Relay.step_forward_self, ← Relay.step_shared] at hStep
    simpa only [Traffic.step, if_pos] using hStep
  · have hCounts := (t.relay.forward acting).step_counts t.relay.shared answer
    obtain ⟨hRounds, hLimit, hDirection, hMetered⟩ := h direction
    simp only [Traffic.step, Relay.step_forward_of_ne _ _ _ hActing, Relay.step_shared, if_neg hActing]
    refine ⟨hRounds, hLimit, hDirection, ?_⟩
    rw [hCounts.metered_other ((h acting).direction_eq.trans_ne hActing)]
    exact hMetered

theorem AllInOrder.step (h : AllInOrder limit t) (event : RelayEvent) :
    AllInOrder limit (t.step event) := by
  cases event with
  | shutdown =>
    intro direction
    cases direction with
    | upstream => exact h .upstream
    | downstream => exact h .downstream
  | on acting answer => exact h.on acting answer

theorem AllInOrder.run (h : AllInOrder limit t) (events : List RelayEvent) :
    AllInOrder limit (t.run events) := by
  induction events generalizing t with
  | nil => exact h
  | cons event events ih => exact ih (h.step event)

end Traffic

theorem Forward.phase_of_not_failed {f : Forward} (hEnded : f.hasEnded = true)
    (hFailure : f.failure? = none) : f.phase = .ended none := by
  unfold Forward.hasEnded at hEnded
  unfold Forward.failure? at hFailure
  cases hPhase : f.phase with
  | ended failure => simp_all
  | _ => simp [hPhase] at hEnded

theorem Relay.moved_of_outcome {r : Relay} {stats : RelayStats} (h : r.outcome? = some (.ok stats))
    (direction : Direction) : (r.forward direction).phase = .ended none ∧
      stats.moved direction = (r.forward direction).total := by
  unfold Relay.outcome? at h
  split at h
  · cases h
  · rename_i hEnded
    obtain ⟨hUp, hDown⟩ : r.upstream.hasEnded = true ∧ r.downstream.hasEnded = true := by
      simpa [Relay.hasEnded] using hEnded
    split at h
    · cases h
    · rename_i hFailure
      obtain ⟨hUpOk, hDownOk⟩ : r.upstream.failure? = none ∧ r.downstream.failure? = none := by
        simpa using hFailure
      cases h
      cases direction with
      | upstream => exact ⟨Forward.phase_of_not_failed hUp hUpOk, rfl⟩
      | downstream => exact ⟨Forward.phase_of_not_failed hDown hDownOk, rfl⟩

/-- A relay passes on what it reads, in order and a chunk at a time, and counts a chunk when it has
been written and flushed. A direction that reads the end has by then passed on all that it has read,
and it ends with a flush and a shutdown of its writer. -/
theorem relay_passes_on_what_it_reads (bufferSize : Nat) (closing : Bool) (events : List RelayEvent)
    (direction : Direction) :
    let traffic := (Traffic.start bufferSize closing).run events
    let relay := traffic.relay
    let f := relay.forward direction
    let log := traffic.logs direction
    let limit := max bufferSize 1
    relay = (Relay.new bufferSize closing).run events ∧
    f.taken = produced log ∧ f.given = delivered log ∧ delivered log <+: produced log ∧
    (∃ (rounds : List (List Bytes)) (tail : List RelayCall), log = rounds.flatMap round ++ tail ∧
      (∀ parts ∈ rounds, parts.flatten ≠ [] ∧ parts.flatten.length ≤ limit) ∧
      Since limit f.phase tail ∧ f.total = rounds.flatten.flatten.length) ∧
    (f.phase = .reading → (produced log).length = f.total) ∧
    (produced log).length ≤ f.total + limit ∧
    f.total ≤ (delivered log).length ∧ (delivered log).length ≤ f.total + limit ∧
    relay.shared.metrics.get (.relayedBytes direction) = f.total ∧
    (∀ stats, relay.outcome? = some (.ok stats) →
      f.phase = .ended none ∧ stats.moved direction = f.total) ∧
    (RelayCall.read [] ∈ log → delivered log = produced log ∧ ∀ failure, f.phase = .ended failure →
      failure = none ∧ ∃ earlier done, log = earlier ++ [.read [], .flush done, .shutdown]) := by
  intro traffic relay f log limit
  obtain ⟨⟨rounds, tail, hRounds⟩, hLimit, -, hMetered⟩ :=
    (Traffic.AllInOrder.start bufferSize closing).run events direction
  obtain ⟨hCounted, hDelivered, hProduced⟩ := hRounds.length_le
  rw [hLimit] at hProduced
  refine ⟨Traffic.run_relay _ events, hRounds.taken, hRounds.given, hRounds.delivered_prefix, ?_,
    hRounds.length_of_reading, hProduced, hCounted, hDelivered.trans hProduced, hMetered, ?_,
    hRounds.of_read_nil⟩
  · have hWhole := hRounds.whole
    have hSince := hRounds.since
    rw [hLimit] at hWhole hSince
    exact ⟨rounds, tail, hRounds.logged, hWhole, hSince, hRounds.total⟩
  · intro stats hStats
    exact Relay.moved_of_outcome hStats direction

/-- Cut off in the middle of a chunk. -/
example :
    let traffic := (Traffic.start 2 false).run
      [.on .upstream (.read [1, 2, 3]), .on .upstream (.wrote 1), .shutdown, .on .upstream .turn]
    let log := traffic.logs .upstream
    produced log = [1, 2] ∧ delivered log = [1] ∧ traffic.relay.upstream.total = 0 := by
  decide

end Switchyard.Proxy
