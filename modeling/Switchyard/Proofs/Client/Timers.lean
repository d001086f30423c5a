import Switchyard.Client.Timed
import Switchyard.Proofs.Client.Completion

/-! # Timers in step with their messages

The invariant of every run in which timers are not stopped. A message that expects a reply has a timer
from when the task takes it up until it has an outcome, and no timer is overdue.
-/
namespace Switchyard.Client
open Net
set_option autoImplicit false

namespace Journal
variable {γ : Type} {codec : Codec γ} {c : Connection γ} {j : Journal} {event : ConnectionEvent}
  {k : Nat}

theorem mem_entered_take {state : γ} {i : Nat} {m : Message}
    (hEntered : k ∈ (j.take codec state i m).entered) : k ∈ j.entered ∨ k = i := by
  unfold take at hEntered
  cases hReply : m.expectsResponse <;> cases hEncode : codec.encode state m.payload <;>
    simp_all

theorem timers_take (codec : Codec γ) (state : γ) (j : Journal) (i : Nat) (m : Message) :
    (j.take codec state i m).timers = if m.expectsResponse then j.timers ++ [i] else j.timers := by
  unfold take
  cases m.expectsResponse <;> cases codec.encode state m.payload <;> rfl

theorem timers_cut (decoded : Decoded γ) (j : Journal) : (j.cut decoded).timers = j.timers := by
  unfold cut
  split <;> rfl

theorem mem_entered_record (hEntered : k ∈ (j.record codec c event).entered) :
    k ∈ j.entered ∨ event = .turn ∧ ∃ m, c.next = .take k m := by
  cases event with
  | turn =>
    cases hNext : c.next with
    | take i m =>
      simp only [record, hNext] at hEntered
      rcases mem_entered_take hEntered with hBefore | rfl
      · exact .inl hBefore
      · exact .inr ⟨rfl, m, rfl⟩
    | rest | shut | leave | decode =>
      left
      simpa [record, hNext] using hEntered
  | send m | written n | flushed =>
    left
    unfold record at hEntered
    simp only at hEntered
    split at hEntered <;> exact hEntered
  | complete | close | cancelParent | dropSender | expire | writeFailed | received | readFailed =>
    exact .inl hEntered

theorem mem_timers_record : k ∈ (j.record codec c event).timers ↔
    k ∈ j.timers ∨ event = .turn ∧ ∃ m, c.next = .take k m ∧ m.expectsResponse = true := by
  cases event with
  | turn =>
    cases hNext : c.next with
    | take i m =>
      simp only [record, hNext, timers_take]
      constructor
      · intro hTimer
        split at hTimer
        case isTrue hReply =>
          rcases List.mem_append.mp hTimer with hBefore | hLast
          · exact .inl hBefore
          · obtain rfl := List.mem_singleton.mp hLast
            exact .inr ⟨trivial, m, rfl, hReply⟩
        case isFalse => exact .inl hTimer
      · rintro (hBefore | ⟨-, m, hTaken, hReply⟩)
        · split
          · exact List.mem_append_left _ hBefore
          · exact hBefore
        · cases hTaken
          simp [hReply]
    | rest | shut | leave | decode => simp [record, hNext, timers_cut]
  | send m | written n | flushed =>
    unfold record
    simp only
    split <;> simp
  | complete | close | cancelParent | dropSender | expire | writeFailed | received | readFailed =>
    simp [record]

end Journal

namespace Connection
variable {γ : Type} {codec : Codec γ} {c : Connection γ} {k : Nat}

theorem isCompleted_eq_false {m : Message} (hMessage : c.messages[k]? = some m) :
    c.isCompleted k = false ↔ m.outcome = none := by
  simp [isCompleted, Message.isCompleted, hMessage]

/-- A message without an outcome is as it was. -/
theorem getElem?_of_unresolved {event : ConnectionEvent} {m : Message} (hLt : k < c.messages.length)
    (hMessage : (c.step codec event).messages[k]? = some m) (hNone : m.outcome = none) :
    c.messages[k]? = some m := by
  have hOld (given : Nat → Option Outcome) (hSettled : (settle given c.messages)[k]? = some m) :
      c.messages[k]? = some m := by
    rw [getElem?_settle] at hSettled
    obtain ⟨old, hOld, rfl⟩ := Option.map_eq_some_iff.mp hSettled
    obtain ⟨hBefore, hGiven⟩ := Option.or_eq_none_iff.mp hNone
    rw [hOld, hBefore, hGiven, Option.or_none, ← hBefore]
  rcases livesOn_or_endsWith codec c event with hLives | hEnds
  · obtain ⟨-, given, -, hMessages, -⟩ := hLives
    rw [hMessages, List.getElem?_append_left (by rwa [length_settle])] at hMessage
    exact hOld given hMessage
  · obtain ⟨-, own, termination, -, -, hMessages⟩ := hEnds
    rw [hMessages] at hMessage
    exact hOld _ hMessage

theorem isCompleted_step (hCompleted : c.isCompleted k = true) (event : ConnectionEvent) :
    (c.step codec event).isCompleted k = true := by
  obtain ⟨m, hMessage, hOutcome⟩ := (Option.any_eq_true _ _).mp hCompleted
  have hKept := getElem?_step_of_completed codec event hMessage (Option.isSome_iff_ne_none.mp hOutcome)
  rw [isCompleted, hKept, Option.any_some, hOutcome]

theorem length_step_le (codec : Codec γ) (c : Connection γ) (event : ConnectionEvent) :
    c.messages.length ≤ (c.step codec event).messages.length := by
  simpa [contents] using (contents_step codec c event).length_le

theorem message_of_content {content : Bytes × Duration} (hContent : c.contents[k]? = some content) :
    ∃ m, c.messages[k]? = some m ∧ m.content = content := by
  rw [contents, List.getElem?_map] at hContent
  exact Option.map_eq_some_iff.mp hContent

theorem content_send (codec : Codec γ) {m : Message} (hAccepted : (c.send m).map (·.1) = .ok k) :
    (c.step codec (.send m)).contents[k]? = some m.content := by
  cases hSend : c.send m with
  | error cause => simp [hSend, Except.map] at hAccepted
  | ok accepted =>
    obtain ⟨i, sent⟩ := accepted
    obtain rfl : i = k := by simpa [hSend, Except.map] using hAccepted
    obtain ⟨-, -, rfl, rfl⟩ := send_eq_ok hSend
    simp [step, hSend, Except.map, Except.toOption, contents, Message.content]

theorem contents_run (codec : Codec γ) (c : Connection γ) (events : List ConnectionEvent) :
    c.contents <+: (c.run codec events).contents := by
  induction events generalizing c with
  | nil => exact List.prefix_refl _
  | cons event events ih => exact (contents_step codec c event).trans (ih (c.step codec event))

theorem isCompleted_expire (codec : Codec γ) (hLt : k < c.messages.length) :
    (c.step codec (.expire k)).isCompleted k = true := by
  obtain ⟨handle, hExpire⟩ := c.expire_connection k []
  have hMessage := List.getElem?_eq_getElem hLt
  simp [step, hExpire, isCompleted, getElem?_settle, hMessage, one, Message.isCompleted]

theorem getElem?_of_unresolved_run {events : List ConnectionEvent} {m : Message}
    (hLt : k < c.messages.length) (hMessage : (c.run codec events).messages[k]? = some m)
    (hNone : m.outcome = none) : c.messages[k]? = some m := by
  induction events generalizing c with
  | nil => exact hMessage
  | cons event events ih =>
    have hLater := ih (Nat.lt_of_lt_of_le hLt (length_step_le codec c event)) hMessage
    exact getElem?_of_unresolved hLt hLater hNone

theorem isCompleted_run (hCompleted : c.isCompleted k = true) (events : List ConnectionEvent) :
    (c.run codec events).isCompleted k = true := by
  induction events generalizing c with
  | nil => exact hCompleted
  | cons event events ih => exact ih (isCompleted_step hCompleted event)

theorem isCompleted_expireAll (codec : Codec γ) {ks : List Nat} (hDue : k ∈ ks)
    (hLt : k < c.messages.length) : (c.run codec (ks.map .expire)).isCompleted k = true := by
  induction ks generalizing c with
  | nil => cases hDue
  | cons i ks ih =>
    rcases List.mem_cons.mp hDue with rfl | hLater
    · exact isCompleted_run (isCompleted_expire codec hLt) _
    · exact ih hLater (Nat.lt_of_lt_of_le hLt (length_step_le codec c (.expire i)))

theorem expire_connection_eq (c : Connection γ) (k : Nat) (metrics : Metrics) :
    (c.expire k metrics).2.1 = (c.expire k []).2.1 := by
  unfold expire Message.expire
  cases c.messages[k]? with
  | none => rfl
  | some m =>
    simp only
    split <;> rfl

end Connection

namespace Course
variable {γ : Type} {codec : Codec γ} {c : Connection γ} {j : Journal} {ks : List Nat}

theorem run_expire : (Course.mk c j).run codec (ks.map .expire) = ⟨c.run codec (ks.map .expire), j⟩ := by
  induction ks generalizing c with
  | nil => rfl
  | cons k ks ih => exact ih

theorem permitted_expire (hTimers : ∀ k ∈ ks, k ∈ j.timers) :
    (Course.mk c j).Permitted codec (ks.map .expire) := by
  induction ks generalizing c with
  | nil => trivial
  | cons k ks ih =>
    obtain ⟨hTimer, hLater⟩ := List.forall_mem_cons.mp hTimers
    exact ⟨hTimer, ih hLater⟩

end Course

namespace Timed
variable {γ : Type} {codec : Codec γ} {t : Timed γ} {timer : Timer Nat}

/-- Whether an event starts this timer. -/
def Starts (t : Timed γ) (event : ConnectionEvent) (timer : Timer Nat) : Prop :=
  event = .turn ∧ ∃ m, t.connection.next = .take timer.key m ∧ m.expectsResponse = true ∧
    timer.deadline = t.scheduler.now + m.timeout.nanoseconds

theorem Starts.spec {event : ConnectionEvent} (hStarts : t.Starts event timer) :
    timer.key < t.connection.messages.length ∧ t.scheduler.now < timer.deadline ∧
      ∀ m, t.connection.messages[timer.key]? = some m →
        timer.deadline = t.scheduler.now + m.timeout.nanoseconds := by
  obtain ⟨-, m, hNext, hReply, hDeadline⟩ := hStarts
  obtain ⟨-, -, -, hMessage, -⟩ := hNext ▸ t.connection.allowed_next
  refine ⟨(List.getElem?_eq_some_iff.mp hMessage).1, ?_, fun m' hMessage' => ?_⟩
  · have hSome : m.timeout.nanoseconds ≠ 0 := by
      simpa [Message.expectsResponse, Duration.isZero] using hReply
    omega
  · cases hMessage.symm.trans hMessage'
    exact hDeadline

theorem mem_timers_startTimer (hRunning : t.scheduler.stopped = false) (event : ConnectionEvent) :
    timer ∈ (t.startTimer event).scheduler.timers ↔
      timer ∈ t.scheduler.timers ∨ t.Starts event timer := by
  obtain ⟨key, deadline⟩ := timer
  unfold startTimer Connection.timer? Starts
  cases event with
  | turn =>
    cases hNext : t.connection.next with
    | take k m =>
      cases hReply : m.expectsResponse <;>
        simp only [Scheduler.start, hRunning, hReply] <;> grind
    | rest | shut | leave | decode => simp
  | _ => simp

theorem mem_timers_on (hRunning : t.scheduler.stopped = false) (event : ConnectionEvent) :
    timer ∈ (t.on codec event).scheduler.timers ↔
      (timer ∈ t.scheduler.timers ∨ t.Starts event timer) ∧
        (t.connection.step codec event).isCompleted timer.key = false := by
  rw [← mem_timers_startTimer hRunning event]
  simp [on, follow, Scheduler.retain]

theorem clock_on (codec : Codec γ) (t : Timed γ) (event : ConnectionEvent) :
    (t.on codec event).scheduler.now = t.scheduler.now ∧
      (t.on codec event).scheduler.stopped = t.scheduler.stopped := by
  unfold on follow startTimer Scheduler.start Scheduler.retain
  split
  · split <;> simp
  · simp

/-- The messages whose timers fire when time passes. -/
def due (t : Timed γ) (time : Duration) : List Nat := (t.scheduler.advance time).1

theorem connection_foldl_fire (codec : Codec γ) (t : Timed γ) (ks : List Nat) :
    (ks.foldl fire t).connection = t.connection.run codec (ks.map .expire) := by
  induction ks generalizing t with
  | nil => rfl
  | cons k ks ih =>
    have hFire : (t.fire k).connection = t.connection.step codec (.expire k) :=
      t.connection.expire_connection_eq k t.metrics
    calc
      ((k :: ks).foldl fire t).connection = (t.fire k).connection.run codec (ks.map .expire) := ih _
      _ = t.connection.run codec ((k :: ks).map .expire) := by rw [hFire]; rfl

theorem scheduler_foldl_fire (t : Timed γ) (ks : List Nat) :
    (ks.foldl fire t).scheduler = t.scheduler := by
  induction ks generalizing t with
  | nil => rfl
  | cons k ks ih => exact ih (t.fire k)

theorem connection_elapse (codec : Codec γ) (t : Timed γ) (time : Duration) :
    (t.elapse time).connection = t.connection.run codec ((t.due time).map .expire) :=
  connection_foldl_fire codec { t with scheduler := (t.scheduler.advance time).2 } _

theorem scheduler_elapse (t : Timed γ) (time : Duration) :
    (t.elapse time).scheduler =
      (t.scheduler.advance time).2.retain (!(t.elapse time).connection.isCompleted ·) := by
  unfold elapse follow
  simp only [scheduler_foldl_fire]

theorem mem_due {time : Duration} {k : Nat} :
    k ∈ t.due time ↔ ∃ timer ∈ t.scheduler.timers, timer.key = k ∧
      timer.deadline ≤ t.scheduler.now + time.nanoseconds := by
  simp [due, Scheduler.advance, Scheduler.isDue, and_assoc, and_comm]

theorem mem_timers_elapse (time : Duration) :
    timer ∈ (t.elapse time).scheduler.timers ↔
      (timer ∈ t.scheduler.timers ∧ t.scheduler.now + time.nanoseconds < timer.deadline) ∧
        (t.elapse time).connection.isCompleted timer.key = false := by
  rw [scheduler_elapse]
  simp only [Scheduler.retain, Scheduler.advance, Scheduler.isDue, List.mem_filter, Bool.not_eq_true',
    decide_eq_false_iff_not, Nat.not_le]

theorem clock_elapse (t : Timed γ) (time : Duration) :
    (t.elapse time).scheduler.now = t.scheduler.now + time.nanoseconds ∧
      (t.elapse time).scheduler.stopped = t.scheduler.stopped := by
  rw [scheduler_elapse]
  exact ⟨rfl, rfl⟩

end Timed

/-- What can happen as long as only the connection and its timers complete messages: a message is new
when it is sent, and nobody stops the timers. -/
def TimedEvent.IsPlain : TimedEvent → Prop
  | .on (.send m) => m.outcome = none
  | .on (.complete _ _) | .on (.expire _) | .stopTimers => False
  | _ => True

theorem TimedEvent.IsPlain.permits {event : ConnectionEvent} (hPlain : IsPlain (.on event))
    (j : Journal) : j.Permits event := by
  cases event with
  | send m => exact hPlain
  | complete | expire => exact hPlain.elim
  | _ => trivial

/-- The timers keep step with the messages. Every message that has been taken up and waits for a reply
has a timer; no timer is overdue, and none runs for longer than its message allows. -/
structure OnTime {γ : Type} (codec : Codec γ) (t : Timed γ) (j : Journal) : Prop where
  inStep : InStep codec ⟨t.connection, j⟩
  fate : ∀ k m, t.connection.messages[k]? = some m → Fate ⟨t.connection, j⟩ k m
  running : t.scheduler.stopped = false
  started : ∀ timer ∈ t.scheduler.timers, timer.key ∈ j.timers
  ahead : ∀ timer ∈ t.scheduler.timers, t.scheduler.now < timer.deadline
  limit : ∀ timer ∈ t.scheduler.timers, ∀ m, t.connection.messages[timer.key]? = some m →
    timer.deadline ≤ t.scheduler.now + m.timeout.nanoseconds
  timed : ∀ k ∈ j.entered, ∀ m, t.connection.messages[k]? = some m → m.expectsResponse = true →
    m.outcome = none → ∃ timer ∈ t.scheduler.timers, timer.key = k

namespace OnTime
variable {γ : Type} {codec : Codec γ} {t : Timed γ} {j : Journal}

theorem start (codec : Codec γ) (id : ConnectionId) (cancelled : Bool) (state : γ) :
    OnTime codec (.new (.new id cancelled state)) .empty where
  inStep := InStep.start codec id cancelled state
  fate _ _ hMessage := by cases hMessage
  running := rfl
  started _ hTimer := by cases hTimer
  ahead _ hTimer := by cases hTimer
  limit _ hTimer := by cases hTimer
  timed _ hEntered := by cases hEntered

theorem lt_of_entered (h : OnTime codec t j) {k : Nat} (hEntered : k ∈ j.entered) :
    k < t.connection.messages.length :=
  h.inStep.length_messages ▸ h.inStep.lt_of_mem_entered hEntered

theorem lt_of_timer (h : OnTime codec t j) {timer : Timer Nat} (hTimer : timer ∈ t.scheduler.timers) :
    timer.key < t.connection.messages.length :=
  Connection.lt_of_expectsReply (h.inStep.timers timer.key (h.started timer hTimer))

theorem on (h : OnTime codec t j) {event : ConnectionEvent}
    (hPlain : TimedEvent.IsPlain (.on event)) :
    OnTime codec (t.on codec event) (j.record codec t.connection event) := by
  obtain ⟨hNow, hStopped⟩ := t.clock_on codec event
  have hPermits := hPlain.permits j
  constructor
  case inStep => exact h.inStep.step event
  case fate => exact fun k m hMessage => Fate.step h.fate h.inStep hPermits hMessage
  case running => exact hStopped.trans h.running
  case started =>
    intro timer hTimer
    obtain ⟨hBefore | ⟨hTurn, m, hNext, hReply, -⟩, -⟩ := (Timed.mem_timers_on h.running event).mp hTimer
    · exact Journal.mem_timers_record.mpr (.inl (h.started timer hBefore))
    · exact Journal.mem_timers_record.mpr (.inr ⟨hTurn, m, hNext, hReply⟩)
  case ahead =>
    intro timer hTimer
    rw [hNow]
    obtain ⟨hBefore | hStarts, -⟩ := (Timed.mem_timers_on h.running event).mp hTimer
    · exact h.ahead timer hBefore
    · exact hStarts.spec.2.1
  case limit =>
    intro timer hTimer m hMessage
    rw [hNow]
    obtain ⟨hOrigin, hWaits⟩ := (Timed.mem_timers_on h.running event).mp hTimer
    have hNone := (Connection.isCompleted_eq_false hMessage).mp hWaits
    rcases hOrigin with hBefore | hStarts
    · exact h.limit timer hBefore m
        (Connection.getElem?_of_unresolved (h.lt_of_timer hBefore) hMessage hNone)
    · obtain ⟨hLt, -, hDeadline⟩ := hStarts.spec
      exact Nat.le_of_eq (hDeadline m (Connection.getElem?_of_unresolved hLt hMessage hNone))
  case timed =>
    intro k hEntered m hMessage hReply hNone
    have hWaits := (Connection.isCompleted_eq_false hMessage).mpr hNone
    rcases Journal.mem_entered_record hEntered with hBefore | ⟨rfl, m', hNext⟩
    · obtain ⟨timer, hTimer, rfl⟩ := h.timed k hBefore m
        (Connection.getElem?_of_unresolved (h.lt_of_entered hBefore) hMessage hNone) hReply hNone
      exact ⟨timer, (Timed.mem_timers_on h.running event).mpr ⟨.inl hTimer, hWaits⟩, rfl⟩
    · -- taken up just now: the timer has started in the same turn
      obtain ⟨-, -, -, hMessage', -⟩ := hNext ▸ t.connection.allowed_next
      have hSame := Connection.getElem?_of_unresolved (List.getElem?_eq_some_iff.mp hMessage').1
        hMessage hNone
      obtain rfl : m = m' := Option.some.inj (hSame.symm.trans hMessage')
      let timer : Timer Nat := ⟨k, t.scheduler.now + m.timeout.nanoseconds⟩
      have hStarts : t.Starts .turn timer := ⟨rfl, m, hNext, hReply, rfl⟩
      exact ⟨timer, (Timed.mem_timers_on h.running .turn).mpr ⟨.inr hStarts, hWaits⟩, rfl⟩

/-- A timer that is due fires, and one that is not due runs on. -/
theorem kept_elapse (h : OnTime codec t j) {timer : Timer Nat} (hTimer : timer ∈ t.scheduler.timers)
    (time : Duration) : (t.elapse time).connection.isCompleted timer.key = true ∨
      timer ∈ (t.elapse time).scheduler.timers := by
  by_cases hPast : timer.deadline ≤ t.scheduler.now + time.nanoseconds
  · left
    rw [t.connection_elapse codec time]
    exact Connection.isCompleted_expireAll codec (Timed.mem_due.mpr ⟨timer, hTimer, rfl, hPast⟩)
      (h.lt_of_timer hTimer)
  · cases hCompleted : (t.elapse time).connection.isCompleted timer.key with
    | true => exact .inl rfl
    | false =>
      exact .inr ((Timed.mem_timers_elapse time).mpr ⟨⟨hTimer, Nat.not_le.mp hPast⟩, hCompleted⟩)

theorem elapse (h : OnTime codec t j) (time : Duration) : OnTime codec (t.elapse time) j := by
  obtain ⟨hNow, hStopped⟩ := t.clock_elapse time
  have hConnection := t.connection_elapse codec time
  have hFired : ∀ k ∈ t.due time, k ∈ j.timers := by
    intro k hDue
    obtain ⟨timer, hTimer, rfl, -⟩ := Timed.mem_due.mp hDue
    exact h.started timer hTimer
  have hUnresolved {k : Nat} {m : Message} (hLt : k < t.connection.messages.length)
      (hMessage : (t.elapse time).connection.messages[k]? = some m) (hNone : m.outcome = none) :
      t.connection.messages[k]? = some m :=
    Connection.getElem?_of_unresolved_run hLt (hConnection ▸ hMessage) hNone
  constructor
  case inStep =>
    rw [hConnection, ← Course.run_expire]
    exact h.inStep.run _
  case fate =>
    have hFate := Fate.run h.fate h.inStep (Course.permitted_expire hFired)
    rw [Course.run_expire] at hFate
    rw [hConnection]
    exact hFate
  case running => exact hStopped.trans h.running
  case started =>
    intro timer hTimer
    exact h.started timer ((Timed.mem_timers_elapse time).mp hTimer).1.1
  case ahead =>
    intro timer hTimer
    rw [hNow]
    exact ((Timed.mem_timers_elapse time).mp hTimer).1.2
  case limit =>
    intro timer hTimer m hMessage
    obtain ⟨⟨hBefore, -⟩, hWaits⟩ := (Timed.mem_timers_elapse time).mp hTimer
    have hLimit := h.limit timer hBefore m (hUnresolved (h.lt_of_timer hBefore) hMessage
      ((Connection.isCompleted_eq_false hMessage).mp hWaits))
    omega
  case timed =>
    intro k hEntered m hMessage hReply hNone
    obtain ⟨timer, hTimer, rfl⟩ :=
      h.timed k hEntered m (hUnresolved (h.lt_of_entered hEntered) hMessage hNone) hReply hNone
    have hWaits := (Connection.isCompleted_eq_false hMessage).mpr hNone
    exact ⟨timer, (h.kept_elapse hTimer time).resolve_left (by simp [hWaits]), rfl⟩

theorem step (h : OnTime codec t j) {event : TimedEvent} (hPlain : event.IsPlain) :
    ∃ j, OnTime codec (t.step codec event) j := by
  cases event with
  | on event => exact ⟨_, h.on hPlain⟩
  | elapse time => exact ⟨j, h.elapse time⟩
  | stopTimers => exact hPlain.elim

theorem run (h : OnTime codec t j) {events : List TimedEvent} (hPlain : ∀ event ∈ events, event.IsPlain) :
    ∃ j, OnTime codec (t.run codec events) j := by
  induction events generalizing t j with
  | nil => exact ⟨j, h⟩
  | cons event events ih =>
    obtain ⟨hFirst, hLater⟩ := List.forall_mem_cons.mp hPlain
    obtain ⟨j, hStep⟩ := h.step hFirst
    exact ih hStep hLater

/-- A timer runs until its message has an outcome. -/
theorem kept_step (h : OnTime codec t j) {event : TimedEvent} (hPlain : event.IsPlain)
    {timer : Timer Nat} (hTimer : timer ∈ t.scheduler.timers) :
    (t.step codec event).connection.isCompleted timer.key = true ∨
      timer ∈ (t.step codec event).scheduler.timers := by
  cases event with
  | on event =>
    cases hCompleted : (t.connection.step codec event).isCompleted timer.key with
    | true => exact .inl hCompleted
    | false => exact .inr ((Timed.mem_timers_on h.running event).mpr ⟨.inl hTimer, hCompleted⟩)
  | elapse time => exact h.kept_elapse hTimer time
  | stopTimers => exact hPlain.elim

end OnTime

end Switchyard.Client
