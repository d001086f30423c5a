import Switchyard.Proofs.Client.Timers

/-! # When messages run out of time

A message that has a timer has an outcome by the time the timer is due. Until the task takes a message
up it has none, and it is not taken up while an earlier one is being written, however long that takes.
-/
namespace Switchyard.Client
open Net
set_option autoImplicit false

namespace Connection
variable {γ : Type} {codec : Codec γ} {c : Connection γ}

theorem next_of_writing (hActive : c.handle.isActive = true) (hWriting : c.writing.isSome = true) :
    c.next = .rest := by
  simp [next, hActive, hWriting]

theorem next_of_ended (hEnded : c.termination ≠ none) : c.next = .rest := by
  simp [next, hasEnded, Option.isSome_iff_ne_none.mpr hEnded]

theorem senderDropped_of_decode (hNext : c.next = .decode) : c.senderDropped = false := by
  unfold next at hNext
  grind

theorem next_turn (codec : Codec γ) (c : Connection γ) :
    (c.step codec .turn).next = .rest ∨ (c.step codec .turn).pending.length < c.pending.length := by
  have hAllowed := c.allowed_next
  cases hNext : c.next with
  | rest =>
    left
    simp [step, turn, hNext]
  | shut =>
    left
    cases hWriting : c.writing <;>
      exact next_of_ended (by simp [step, turn, hNext, shut, hWriting])
  | leave =>
    left
    exact next_of_ended (by simp [step, turn, hNext])
  | take k m =>
    left
    rw [hNext] at hAllowed
    obtain ⟨-, hActive, -⟩ := hAllowed
    cases hEncode : codec.encode c.codec m.payload with
    | error cause => exact next_of_ended (by simp [step, turn, hNext, begin, hEncode])
    | ok encoded =>
      obtain ⟨bytes, state⟩ := encoded
      exact next_of_writing (by simpa [step, turn, hNext, begin, hEncode] using hActive)
        (by simp [step, turn, hNext, begin, hEncode])
  | decode =>
    rw [hNext] at hAllowed
    obtain ⟨-, hActive, hIdle, hQueued⟩ := hAllowed
    cases hDecoded : c.decoded codec with
    | error cause =>
      left
      exact next_of_ended (by simp [step, turn, hNext, decode, hDecoded])
    | ok found =>
      cases found with
      | none =>
        left
        cases hEnd : c.inboundEnded with
        | true => exact next_of_ended (by simp [step, turn, hNext, decode, hDecoded, hEnd])
        | false =>
          have hStep : c.step codec .turn = { c with readable := false } := by
            simp [step, turn, hNext, decode, hDecoded, hEnd]
          rw [hStep]
          simp [next, hActive, hIdle, hQueued, senderDropped_of_decode hNext]
      | some frame =>
        obtain ⟨payload, rest, state⟩ := frame
        cases hDue : c.pending with
        | nil =>
          left
          exact next_of_ended (by simp [step, turn, hNext, decode, hDecoded, deliver, hDue])
        | cons k others =>
          -- the only turn that another one can follow: the bytes read may hold more replies
          right
          simp [step, turn, hNext, decode, hDecoded, deliver, hDue, complete_eq]

/-- Without an answer of the transport the task rests after a bounded number of turns. -/
theorem comes_to_rest (codec : Codec γ) (c : Connection γ) :
    ∃ n ≤ c.pending.length + 1, (c.run codec (List.replicate n .turn)).next = .rest := by
  induction hLength : c.pending.length using Nat.strongRecOn generalizing c with
  | ind length ih =>
    subst hLength
    rcases c.next_turn codec with hRest | hFewer
    · exact ⟨1, by omega, hRest⟩
    · obtain ⟨n, hBound, hRest⟩ := ih _ hFewer (c.step codec .turn) rfl
      exact ⟨n + 1, by omega, by rwa [List.replicate_succ]⟩

theorem writing_of_rest (hRest : c.next = .rest) (hOpen : c.termination = none)
    (hQueued : c.queued ≠ []) (hKnown : ∀ i ∈ c.queued, i < c.messages.length) :
    ∃ i, c.writing = some i := by
  unfold next at hRest
  rw [if_neg (by simp [hasEnded, hOpen])] at hRest
  split at hRest
  case isTrue => cases hRest
  case isFalse =>
    split at hRest
    case isTrue hWriting => exact Option.isSome_iff_exists.mp hWriting
    case isFalse =>
      obtain ⟨i, others, hHead⟩ := List.exists_cons_of_ne_nil hQueued
      have hLt := hKnown i (hHead ▸ List.mem_cons_self)
      rw [hHead] at hRest
      simp only [List.getElem?_eq_getElem hLt] at hRest
      cases hRest

end Connection

namespace OnTime
variable {γ : Type} {codec : Codec γ} {t : Timed γ} {j : Journal}

/-- A task that rests has taken up every message, but for those behind the one it is writing. -/
theorem entered_of_rest (h : OnTime codec t j) (hRest : t.connection.next = .rest) {k : Nat}
    {m : Message} (hMessage : t.connection.messages[k]? = some m) (hNone : m.outcome = none)
    (hFree : ∀ i, i < k → t.connection.writing ≠ some i) : k ∈ j.entered := by
  have hOpen : t.connection.termination = none := by
    by_contra hEnded
    exact (h.fate k m hMessage).told hEnded hNone
  have hLt : k < j.accepted.length :=
    h.inStep.length_messages ▸ (List.getElem?_eq_some_iff.mp hMessage).1
  by_contra hUnbegun
  have hQueued := (h.inStep.queued_iff hOpen hLt).mpr hUnbegun
  have hKnown : ∀ i ∈ t.connection.queued, i < t.connection.messages.length := by
    intro i hi
    have hRange : i ∈ List.range j.accepted.length :=
      h.inStep.waiting hOpen ▸ List.mem_append_right _ hi
    rw [h.inStep.length_messages]
    exact List.mem_range.mp hRange
  obtain ⟨i, hWriting⟩ := Connection.writing_of_rest hRest hOpen (List.ne_nil_of_mem hQueued) hKnown
  have hEntered := ((h.inStep.writing_iff hOpen).mp hWriting).1
  -- the messages that have been taken up are the first ones accepted
  rw [h.inStep.entered, List.mem_range] at hEntered hUnbegun
  exact hFree i (by omega) hWriting

end OnTime

namespace Timed
variable {γ : Type} {codec : Codec γ} {t : Timed γ} {k : Nat}

theorem exists_run_step (codec : Codec γ) (t : Timed γ) (event : TimedEvent) :
    ∃ events, (t.step codec event).connection = t.connection.run codec events := by
  cases event with
  | on event => exact ⟨[event], rfl⟩
  | elapse time => exact ⟨_, t.connection_elapse codec time⟩
  | stopTimers => exact ⟨[], rfl⟩

theorem exists_run (codec : Codec γ) (t : Timed γ) (events : List TimedEvent) :
    ∃ own, (t.run codec events).connection = t.connection.run codec own := by
  induction events generalizing t with
  | nil => exact ⟨[], rfl⟩
  | cons event events ih =>
    obtain ⟨first, hFirst⟩ := t.exists_run_step codec event
    obtain ⟨later, hLater⟩ := ih (t.step codec event)
    refine ⟨first ++ later, hLater.trans ?_⟩
    rw [hFirst, Connection.run, Connection.run, Connection.run, List.foldl_append]

theorem isCompleted_run (hCompleted : t.connection.isCompleted k = true) (events : List TimedEvent) :
    (t.run codec events).connection.isCompleted k = true := by
  obtain ⟨own, hRun⟩ := t.exists_run codec events
  rw [hRun]
  exact Connection.isCompleted_run hCompleted own

theorem content_run {content : Bytes × Duration} (hContent : t.connection.contents[k]? = some content)
    (events : List TimedEvent) : (t.run codec events).connection.contents[k]? = some content := by
  obtain ⟨own, hRun⟩ := t.exists_run codec events
  obtain ⟨added, hContents⟩ := Connection.contents_run codec t.connection own
  have hLt := (List.getElem?_eq_some_iff.mp hContent).1
  rw [hRun, ← hContents, List.getElem?_append_left hLt, hContent]

/-- Time passes only when the task can do nothing by itself. -/
def Prompt (codec : Codec γ) : Timed γ → List TimedEvent → Prop
  | _, [] => True
  | t, event :: events =>
    (∀ time, event = .elapse time → t.connection.next = .rest) ∧ (t.step codec event).Prompt codec events

end Timed

theorem OnTime.kept_run {γ : Type} {codec : Codec γ} {t : Timed γ} {j : Journal} (h : OnTime codec t j)
    {events : List TimedEvent} (hPlain : ∀ event ∈ events, event.IsPlain) {timer : Timer Nat}
    (hTimer : timer ∈ t.scheduler.timers) :
    (t.run codec events).connection.isCompleted timer.key = true ∨
      timer ∈ (t.run codec events).scheduler.timers := by
  induction events generalizing t j with
  | nil => exact .inr hTimer
  | cons event events ih =>
    obtain ⟨hFirst, hLater⟩ := List.forall_mem_cons.mp hPlain
    rcases h.kept_step hFirst hTimer with hCompleted | hKept
    · exact .inl (Timed.isCompleted_run hCompleted events)
    · obtain ⟨j, hStep⟩ := h.step hFirst
      exact ih hStep hLater hKept

theorem OnTime.resolved {γ : Type} {codec : Codec γ} {t : Timed γ} {j : Journal} (h : OnTime codec t j)
    {events : List TimedEvent} (hPlain : ∀ event ∈ events, event.IsPlain) {k : Nat} {m : Message}
    (hMessage : t.connection.messages[k]? = some m) (hReply : m.expectsResponse = true)
    (hBegun : m.outcome = none → k ∈ j.entered)
    (hTime : t.scheduler.now + m.timeout.nanoseconds ≤ (t.run codec events).scheduler.now) :
    (t.run codec events).connection.isCompleted k = true := by
  cases hOutcome : m.outcome with
  | some outcome =>
    refine Timed.isCompleted_run ?_ events
    simp [Connection.isCompleted, hMessage, Message.isCompleted, hOutcome]
  | none =>
    obtain ⟨timer, hTimer, rfl⟩ := h.timed k (hBegun hOutcome) m hMessage hReply hOutcome
    rcases h.kept_run hPlain hTimer with hCompleted | hKept
    · exact hCompleted
    · -- a timer that still runs is not due, but this one has been due since its message's time was over
      obtain ⟨j, hEnd⟩ := h.run hPlain
      have hAhead := hEnd.ahead timer hKept
      have hLimit := h.limit timer hTimer m hMessage
      omega

/-- A message of two bytes, of which the transport has taken one. -/
def halfway : List TimedEvent := [.on (.send (.new [97, 98] ⟨0⟩)), .on .turn, .on (.written 1)]

/-- A message behind one whose write stalls has no timer, so it can wait for longer than it allows. -/
theorem not_resolved_in_time_of_send :
    ¬ ∀ (γ : Type) (codec : Codec γ) (id : ConnectionId) (cancelled : Bool) (state : γ)
        (before after : List TimedEvent) (m : Message) (k : Nat),
      let start := Timed.new (.new id cancelled state)
      let t := start.run codec before
      let v := t.run codec (.on (.send m) :: after)
      (∀ event ∈ before ++ .on (.send m) :: after, event.IsPlain) →
      start.Prompt codec (before ++ .on (.send m) :: after) →
      (t.connection.send m).map (·.1) = .ok k → m.expectsResponse = true →
      t.scheduler.now + m.timeout.nanoseconds ≤ v.scheduler.now →
      v.connection.isCompleted k = true := by
  intro hClaim
  have hResolved := hClaim Unit .lines ⟨1⟩ false () halfway [.elapse ⟨20⟩] (.new [99] ⟨20⟩) 1
    (by simp [halfway, TimedEvent.IsPlain, Message.new])
    ⟨nofun, nofun, nofun, nofun,
      fun _ _ => Connection.next_of_writing (by decide +kernel) (by decide +kernel), trivial⟩
    (by decide +kernel) rfl (by decide +kernel)
  revert hResolved
  decide +kernel

/-- A message has an outcome as soon as its time has passed since the task rested without an earlier
message in its way. By then the task has taken it up, and it has a timer. -/
theorem resolved_in_time_once_unobstructed {γ : Type} (codec : Codec γ) (id : ConnectionId)
    (cancelled : Bool) (state : γ) (before during after : List TimedEvent) (m : Message)
    (hPlain : ∀ event ∈ before ++ .on (.send m) :: (during ++ after), event.IsPlain) :
    let t := (Timed.new (.new id cancelled state)).run codec before
    let u := t.run codec (.on (.send m) :: during)
    let v := u.run codec after
    ∀ k, (t.connection.send m).map (·.1) = .ok k → m.expectsResponse = true →
      u.connection.next = .rest → (∀ i, i < k → u.connection.writing ≠ some i) →
      u.scheduler.now + m.timeout.nanoseconds ≤ v.scheduler.now →
      ∃ m' outcome, v.connection.messages[k]? = some m' ∧ m'.content = m.content ∧
        m'.outcome = some outcome ∧ outcome ≠ .ok none := by
  intro t u v k hAccepted hReply hRest hFree hTime
  obtain ⟨hBefore, hLater⟩ := List.forall_mem_append.mp hPlain
  obtain ⟨hSend, hLater⟩ := List.forall_mem_cons.mp hLater
  obtain ⟨hDuring, hAfter⟩ := List.forall_mem_append.mp hLater
  obtain ⟨_, hT⟩ := (OnTime.start codec id cancelled state).run hBefore
  obtain ⟨_, hU⟩ := hT.run (List.forall_mem_cons.mpr ⟨hSend, hDuring⟩)
  obtain ⟨_, hV⟩ := hU.run hAfter
  have hContent : u.connection.contents[k]? = some m.content :=
    Timed.content_run (t := t.step codec (.on (.send m))) (Connection.content_send codec hAccepted)
      during
  have hTimeout {m' : Message} (hSame : m'.content = m.content) : m'.timeout = m.timeout :=
    congrArg Prod.snd hSame
  have hExpects {m' : Message} (hSame : m'.content = m.content) : m'.expectsResponse = true := by
    rw [Message.expectsResponse, hTimeout hSame]
    exact hReply
  obtain ⟨m₁, hMessage₁, hSame₁⟩ := Connection.message_of_content hContent
  obtain ⟨m₂, hMessage₂, hSame₂⟩ := Connection.message_of_content (Timed.content_run hContent after)
  have hCompleted : v.connection.isCompleted k = true := by
    apply hU.resolved hAfter hMessage₁ (hExpects hSame₁)
    · exact fun hNone => hU.entered_of_rest hRest hMessage₁ hNone hFree
    · rw [hTimeout hSame₁]
      exact hTime
  cases hOutcome : m₂.outcome with
  | none => cases ((Connection.isCompleted_eq_false hMessage₂).mpr hOutcome).symm.trans hCompleted
  | some outcome =>
    refine ⟨m₂, outcome, hMessage₂, hSame₂, hOutcome, fun hSilent => ?_⟩
    exact (hV.fate k m₂ hMessage₂).answered (hExpects hSame₂) (hSilent ▸ hOutcome)

/-- The message in the way is written at last, and the next one is taken up and gets no reply. -/
theorem resolved_in_time_once_unobstructed_at_last :
    let during : List TimedEvent := [.elapse ⟨50⟩, .on (.written 2), .on .flushed, .on .turn]
    let m := Message.new [99] ⟨20⟩
    let t := (Timed.new (.new ⟨1⟩ false ())).run .lines halfway
    let u := t.run .lines (.on (.send m) :: during)
    let v := u.run .lines [.elapse ⟨20⟩]
    (t.connection.send m).map (·.1) = .ok 1 ∧ u.connection.next = .rest ∧
      u.connection.writing = some 1 ∧ u.connection.isCompleted 1 = false ∧
      ∃ m' outcome, v.connection.messages[1]? = some m' ∧ m'.outcome = some outcome ∧
        outcome ≠ .ok none := by
  intro during m t u v
  have hAccepted : (t.connection.send m).map (·.1) = .ok 1 := by decide +kernel
  have hWriting : u.connection.writing = some 1 := by decide +kernel
  have hRest : u.connection.next = .rest :=
    Connection.next_of_writing (by decide +kernel) (by rw [hWriting, Option.isSome_some])
  have hFree (i : Nat) (hEarlier : i < 1) : u.connection.writing ≠ some i := by
    intro hBusy
    cases hWriting.symm.trans hBusy
    omega
  obtain ⟨m', outcome, hMessage, -, hOutcome, hLoud⟩ :=
    resolved_in_time_once_unobstructed .lines ⟨1⟩ false () halfway during [.elapse ⟨20⟩] m
      (by simp [halfway, during, m, TimedEvent.IsPlain, Message.new]) 1 hAccepted rfl hRest hFree
      (by decide +kernel)
  exact ⟨hAccepted, hRest, hWriting, by decide +kernel, m', outcome, hMessage, hOutcome, hLoud⟩

end Switchyard.Client
