import Switchyard.Client.Fleet
import Switchyard.Proofs.Client.Activity
import Switchyard.Proofs.Client.Timers

/-! # Timers on a shared scheduler

The timers of a fleet belong to messages that its connections have begun to write, one timer to each at most.
What a connection has begun is read off its journal; what the timers are follows from it, for everything that
can come between the end of a message and the end of its timer.
-/
namespace Switchyard.Client
open Net
set_option autoImplicit false

theorem nodup_append_toList {α : Type} {xs : List α} {next : Option α} (hNodup : xs.Nodup)
    (hNew : ∀ x, next = some x → x ∉ xs) : (xs ++ next.toList).Nodup := by
  cases next with
  | none => simpa using hNodup
  | some x =>
    refine List.nodup_append.mpr ⟨hNodup, by simp, ?_⟩
    rintro y hBefore _ hLast rfl
    obtain rfl := List.mem_singleton.mp hLast
    exact hNew y rfl hBefore

namespace Connection
variable {γ : Type} {codec : Codec γ} {c : Connection γ} {event : ConnectionEvent} {k : Nat}

theorem taken?_eq_some : c.taken? = some k ↔ ∃ m, c.next = .take k m := by
  unfold taken?
  cases hNext : c.next <;> simp

theorem timer?_eq (c : Connection γ) : c.timer?.map (·.1) = c.taken?.filter c.expectsReply := by
  have hAllowed := c.allowed_next
  unfold timer? taken?
  cases hNext : c.next with
  | take k m =>
    obtain ⟨-, -, -, hMessage, -⟩ := hNext ▸ hAllowed
    simp only [Option.filter_some, expectsReply_of_message hMessage]
    cases m.expectsResponse <;> rfl
  | rest | shut | leave | decode => rfl

theorem message_step (codec : Codec γ) {m : Message} (hMessage : c.messages[k]? = some m)
    (event : ConnectionEvent) : ∃ m', (c.step codec event).messages[k]? = some m' ∧
      m'.content = m.content ∧ (m.outcome ≠ none → m' = m) := by
  have hContent : (c.step codec event).contents[k]? = some m.content := by
    obtain ⟨added, hContents⟩ := contents_step codec c event
    have hLt : k < c.contents.length := by
      simpa [contents] using (List.getElem?_eq_some_iff.mp hMessage).1
    rw [← hContents, List.getElem?_append_left hLt, contents, List.getElem?_map, hMessage, Option.map_some]
  obtain ⟨m', hMessage', hSame⟩ := message_of_content hContent
  refine ⟨m', hMessage', hSame, fun hCompleted => ?_⟩
  exact Option.some.inj (hMessage'.symm.trans (getElem?_step_of_completed codec event hMessage hCompleted))

/-- A timer that is too late does nothing, and leaves the connection open. -/
theorem step_expire_of_completed (codec : Codec γ) {m : Message} (hMessage : c.messages[k]? = some m)
    (hCompleted : m.outcome ≠ none) : c.step codec (.expire k) = c := by
  obtain ⟨outcome, hOutcome⟩ := Option.ne_none_iff_exists'.mp hCompleted
  have hSame : c.messages.set k m = c.messages := by
    obtain ⟨hLt, rfl⟩ := List.getElem?_eq_some_iff.mp hMessage
    exact List.set_getElem_self hLt
  simp only [step, expire, hMessage, Message.expire, Message.complete, hOutcome, hSame]

/-- A connection that runs on has written down what it took up. -/
theorem mem_entered_of_taken (j : Journal) (hTaken : c.taken? = some k)
    (hOpen : (c.step codec .turn).termination = none) : k ∈ (j.record codec c .turn).entered := by
  obtain ⟨m, hNext⟩ := taken?_eq_some.mp hTaken
  cases hEncode : codec.encode c.codec m.payload with
  | error cause => simp [step, turn, hNext, begin, hEncode] at hOpen
  | ok encoded => simp [Journal.record, Journal.take, hNext, hEncode]

/-- What a connection has begun to write, for as long as it has not ended, is in its journal. -/
structure Tracks (codec : Codec γ) (c : Connection γ) (P : Nat → Prop) : Prop where
  attends : c.Attends
  course : ∃ j, InStep codec ⟨c, j⟩ ∧ (c.termination = none → ∀ k, P k ↔ k ∈ j.entered)
  known : ∀ k, P k → k < c.messages.length

namespace Tracks
variable {P : Nat → Prop}

theorem new (codec : Codec γ) (id : ConnectionId) (cancelled : Bool) (fresh : γ) (hNone : ∀ k, ¬P k) :
    (Connection.new id cancelled fresh).Tracks codec P where
  attends := attends_new id cancelled fresh
  course := ⟨.empty, InStep.start codec id cancelled fresh, fun _ k => by simp [Journal.empty, hNone]⟩
  known k hBegun := absurd hBegun (hNone k)

theorem of_taken (h : c.Tracks codec P) (hTaken : c.taken? = some k) :
    ¬P k ∧ k < c.messages.length := by
  obtain ⟨m, hNext⟩ := taken?_eq_some.mp hTaken
  obtain ⟨hOpen, -, -, hMessage, hQueued⟩ := hNext ▸ c.allowed_next
  have hLt := (List.getElem?_eq_some_iff.mp hMessage).1
  -- what is queued has not entered the sink yet
  obtain ⟨j, hInStep, hBegun⟩ := h.course
  have hWaits : k ∈ c.queued := hQueued ▸ List.mem_cons_self
  rw [hBegun hOpen k]
  exact ⟨(hInStep.queued_iff hOpen (hInStep.length_messages ▸ hLt)).mp hWaits, hLt⟩

theorem step (h : c.Tracks codec P) (event : ConnectionEvent) :
    (c.step codec event).Tracks codec fun k => P k ∨ event = .turn ∧ c.taken? = some k := by
  constructor
  case attends => exact h.attends.step event
  case course =>
    obtain ⟨j, hInStep, hBegun⟩ := h.course
    refine ⟨j.record codec c event, hInStep.step event, fun hOpen' k => ?_⟩
    have hOpen : c.termination = none := by
      cases hTermination : c.termination with
      | none => rfl
      | some termination =>
        have hEnded := hasEnded_step codec (c := c) (by simp [hasEnded, hTermination]) event
        simp [hasEnded, hOpen'] at hEnded
    constructor
    · rintro (hBefore | ⟨rfl, hTaken⟩)
      · exact (Journal.entered_record codec c j event).subset ((hBegun hOpen k).mp hBefore)
      · exact mem_entered_of_taken j hTaken hOpen'
    · intro hEntered
      apply (Journal.mem_entered_record hEntered).imp
      · exact (hBegun hOpen k).mpr
      · exact And.imp_right taken?_eq_some.mpr
  case known =>
    intro k hBegun
    have hLt : k < c.messages.length := by
      rcases hBegun with hBefore | ⟨-, hTaken⟩
      · exact h.known k hBefore
      · exact (h.of_taken hTaken).2
    exact Nat.lt_of_lt_of_le hLt (length_step_le codec c event)

theorem of_iff (h : c.Tracks codec P) {Q : Nat → Prop} (hSame : ∀ k, Q k ↔ P k) : c.Tracks codec Q :=
  (funext fun k => propext (hSame k) : Q = P) ▸ h

end Tracks
end Connection

namespace Fleet
variable {γ : Type} {f f' : Fleet γ} {event : Event γ} {i : Nat} {key other : Nat × Nat}

theorem message?_eq_some {m : Message} : f.message? key = some m ↔
    ∃ c, f.connections[key.1]? = some c ∧ c.messages[key.2]? = some m :=
  Option.bind_eq_some_iff

theorem begun?_eq_some : f.begun? event = some key ↔
    event = .on key.1 .turn ∧ ∃ c, f.connections[key.1]? = some c ∧ c.taken? = some key.2 := by
  obtain ⟨i, k⟩ := key
  unfold begun?
  split
  case h_1 j =>
    simp only [Option.map_eq_some_iff, Option.bind_eq_some_iff, Prod.mk.injEq, Event.on.injEq, and_true]
    grind
  case h_2 hOther =>
    simp only [reduceCtorEq, false_iff, not_and]
    intro hEvent
    exact absurd hEvent (hOther i)

theorem getElem?_onConnection (f : Fleet γ) (i j : Nat) (event : ConnectionEvent) :
    (f.onConnection i event).connections[j]? =
      (f.connections[j]?).map fun c => if i = j then c.step f.codec event else c := by
  rw [onConnection, List.getElem?_modify]
  cases f.connections[j]? with
  | none => rfl
  | some c => by_cases hAt : i = j <;> simp [hAt]

theorem connections_startTimer (f : Fleet γ) (i : Nat) (event : ConnectionEvent) :
    (f.startTimer i event).connections = f.connections ∧ (f.startTimer i event).codec = f.codec ∧
      (f.startTimer i event).scheduler.stopped = f.scheduler.stopped := by
  unfold startTimer
  split <;> exact ⟨rfl, rfl, rfl⟩

/-- What an event is to the connections. -/
inductive Moves (f : Fleet γ) : Event γ → List (Connection γ) → Prop
  | opened (cancelled : Bool) (fresh : γ) :
    Moves f (.opened cancelled fresh) (f.opened cancelled fresh).connections
  | on (i : Nat) (event : ConnectionEvent) : Moves f (.on i event) (f.onConnection i event).connections
  | fire {key : Nat × Nat} (hFire : f.mayFire key = true) :
    Moves f (.fire key) (f.onConnection key.1 (.expire key.2)).connections
  | idle {event : Event γ} (hIdle : f.begun? event = none) : Moves f event f.connections

theorem moves_step (f : Fleet γ) (event : Event γ) : f.Moves event (f.step event).connections := by
  cases event with
  | opened cancelled fresh => exact .opened cancelled fresh
  | on i event =>
    obtain ⟨hConnections, hCodec, -⟩ := f.connections_startTimer i event
    have hStep : (f.step (.on i event)).connections = (f.onConnection i event).connections := by
      rw [step, onConnection, hConnections, hCodec]
      rfl
    rw [hStep]
    exact .on i event
  | fire key =>
    simp only [step]
    split
    case isTrue hFire => exact .fire hFire
    case isFalse => exact .idle rfl
  | lapse key =>
    simp only [step]
    split <;> exact .idle rfl
  | elapse | stop => exact .idle rfl

theorem codec_step (f : Fleet γ) (event : Event γ) : (f.step event).codec = f.codec := by
  cases event with
  | on i event => exact (f.connections_startTimer i event).2.1
  | fire key | lapse key =>
    simp only [step]
    split <;> rfl
  | opened | elapse | stop => rfl

/-- What becomes of the messages: no content changes, and an outcome is final. -/
def Keeps (f f' : Fleet γ) : Prop :=
  ∀ key m, f.message? key = some m →
    ∃ m', f'.message? key = some m' ∧ m'.content = m.content ∧ (m.outcome ≠ none → m' = m)

theorem keeps_step (f : Fleet γ) (event : Event γ) : f.Keeps (f.step event) := by
  intro key m hMessage
  obtain ⟨c, hc, hMessage⟩ := message?_eq_some.mp hMessage
  have hOld {xs : List (Connection γ)} (hSame : xs[key.1]? = some c) :
      ∃ m', (xs[key.1]?).bind (·.messages[key.2]?) = some m' ∧ m'.content = m.content ∧
        (m.outcome ≠ none → m' = m) :=
    ⟨m, by rw [hSame, Option.bind_some, hMessage], rfl, fun _ => rfl⟩
  have hMoved (i : Nat) (e : ConnectionEvent) :
      ∃ m', ((f.onConnection i e).connections[key.1]?).bind (·.messages[key.2]?) = some m' ∧
        m'.content = m.content ∧ (m.outcome ≠ none → m' = m) := by
    by_cases hAt : i = key.1
    · obtain ⟨m', hMessage', hKept⟩ := c.message_step f.codec hMessage e
      exact ⟨m', by simpa [getElem?_onConnection, hc, hAt] using hMessage', hKept⟩
    · exact hOld (by simp [getElem?_onConnection, hc, hAt])
  have hMoves := f.moves_step event
  unfold message?
  generalize (f.step event).connections = xs at hMoves ⊢
  cases hMoves with
  | opened cancelled fresh =>
    exact hOld ((List.getElem?_append_left (List.getElem?_eq_some_iff.mp hc).1).trans hc)
  | on i e => exact hMoved i e
  | fire hFire => exact hMoved _ _
  | idle => exact hOld hc

theorem Keeps.expectsReply (h : f.Keeps f') {m : Message} (hMessage : f.message? key = some m) :
    f'.expectsReply key = f.expectsReply key := by
  obtain ⟨m', hMessage', hContent, -⟩ := h key m hMessage
  have hTimeout : m'.timeout = m.timeout := congrArg Prod.snd hContent
  rw [Fleet.expectsReply, Fleet.expectsReply, hMessage', hMessage, Option.any_some, Option.any_some,
    Message.expectsResponse, hTimeout, Message.expectsResponse]

theorem Keeps.isCompleted (h : f.Keeps f') (hCompleted : f.isCompleted key = true) :
    f'.isCompleted key = true := by
  obtain ⟨m, hMessage, hOutcome⟩ := (Option.any_eq_true _ _).mp hCompleted
  obtain ⟨m', hMessage', -, hKept⟩ := h key m hMessage
  rw [Fleet.isCompleted, hMessage', hKept (Option.isSome_iff_ne_none.mp hOutcome), Option.any_some]
  exact hOutcome

/-- The connections and what they have begun to write, each message once. -/
structure Tracks (f : Fleet γ) (begun : List (Nat × Nat)) : Prop where
  connections : ∀ (i : Nat) (c : Connection γ), f.connections[i]? = some c →
    c.Tracks f.codec fun k => (i, k) ∈ begun
  known : ∀ key ∈ begun, key.1 < f.connections.length
  nodup : begun.Nodup

namespace Tracks
variable {begun : List (Nat × Nat)}

theorem new (codec : Codec γ) : (Fleet.new codec).Tracks [] where
  connections _ _ hc := by cases hc
  known _ hBegun := by cases hBegun
  nodup := .nil

theorem message (h : f.Tracks begun) (hBegun : key ∈ begun) : ∃ m, f.message? key = some m := by
  have hc := List.getElem?_eq_getElem (h.known key hBegun)
  have hLt := (h.connections _ _ hc).known key.2 hBegun
  exact ⟨_, message?_eq_some.mpr ⟨_, hc, List.getElem?_eq_getElem hLt⟩⟩

theorem of_begun? (h : f.Tracks begun) (hBegun : f.begun? event = some key) :
    key ∉ begun ∧ ∃ m, f.message? key = some m := by
  obtain ⟨-, c, hc, hTaken⟩ := begun?_eq_some.mp hBegun
  obtain ⟨hNew, hLt⟩ := (h.connections _ _ hc).of_taken hTaken
  exact ⟨hNew, _, message?_eq_some.mpr ⟨c, hc, List.getElem?_eq_getElem hLt⟩⟩

theorem message_of_mem (h : f.Tracks begun) (hBegun : key ∈ begun ++ (f.begun? event).toList) :
    ∃ m, f.message? key = some m := by
  rcases List.mem_append.mp hBegun with hBefore | hNow
  · exact h.message hBefore
  · exact (h.of_begun? (Option.mem_toList.mp hNow)).2

theorem onConnection (h : f.Tracks begun) {j : Nat} {e : ConnectionEvent} {c' : Connection γ}
    (hc' : (f.onConnection j e).connections[i]? = some c')
    (hBegun : ∀ k, f.begun? event = some (i, k) ↔ j = i ∧ e = .turn ∧
      ∃ c, f.connections[i]? = some c ∧ c.taken? = some k) :
    c'.Tracks f.codec fun k => (i, k) ∈ begun ++ (f.begun? event).toList := by
  rw [getElem?_onConnection] at hc'
  obtain ⟨c, hc, rfl⟩ := Option.map_eq_some_iff.mp hc'
  have hTracks := h.connections i c hc
  split
  case isTrue hAt =>
    refine (hTracks.step e).of_iff fun k => ?_
    simp [hBegun, hAt, hc]
  case isFalse hAt =>
    refine hTracks.of_iff fun k => ?_
    simp [hBegun, hAt]

theorem step (h : f.Tracks begun) (event : Event γ) :
    (f.step event).Tracks (begun ++ (f.begun? event).toList) where
  connections i c' hc' := by
    have hMoves := f.moves_step event
    rw [codec_step]
    generalize (f.step event).connections = xs at hMoves hc'
    cases hMoves with
    | on j e => exact h.onConnection hc' fun k => by simp [begun?_eq_some, and_assoc]
    | fire hFire => exact h.onConnection hc' fun k => by simp [begun?]
    | idle hIdle => exact (h.connections i c' hc').of_iff fun k => by simp [hIdle]
    | opened cancelled fresh =>
      simp only [begun?, Option.toList_none, List.append_nil]
      rw [opened, List.getElem?_append] at hc'
      split at hc'
      case isTrue => exact h.connections i c' hc'
      case isFalse hLe =>
        rw [List.getElem?_singleton] at hc'
        split at hc'
        case isTrue =>
          obtain rfl := Option.some.inj hc'
          refine .new _ _ cancelled fresh fun k hBefore => ?_
          exact hLe (h.known _ hBefore)
        case isFalse => cases hc'
  known key hBegun := by
    obtain ⟨m, hMessage⟩ := h.message_of_mem hBegun
    obtain ⟨m', hMessage', -⟩ := f.keeps_step event key m hMessage
    obtain ⟨c, hc, -⟩ := message?_eq_some.mp hMessage'
    exact (List.getElem?_eq_some_iff.mp hc).1
  nodup := nodup_append_toList h.nodup fun _ hNow => (h.of_begun? hNow).1

end Tracks

/-- The keys of the timers, in the order they were started. -/
def timed (f : Fleet γ) : List (Nat × Nat) := f.scheduler.timers.map (·.key)

theorem timed_startTimer (f : Fleet γ) (i : Nat) (event : ConnectionEvent) :
    (f.startTimer i event).timed =
      f.timed ++ ((f.begun? (.on i event)).filter f.expectsReply).toList := by
  cases event with
  | turn =>
    have hStart : (f.startTimer i .turn).timed =
        f.timed ++ (((f.connections[i]?).bind (·.timer?)).map fun started => (i, started.1)).toList := by
      unfold startTimer
      cases (f.connections[i]?).bind (·.timer?) <;> simp [timed, Scheduler.spawn]
    rw [hStart, begun?]
    congr 2
    cases hc : f.connections[i]? with
    | none => rfl
    | some c =>
      have hReply (k : Nat) : f.expectsReply (i, k) = c.expectsReply k := by
        simp [expectsReply, message?, hc, Connection.expectsReply]
      calc
        c.timer?.map (fun started => (i, started.1)) = (c.timer?.map (·.1)).map (i, ·) := by
          rw [Option.map_map]
          rfl
        _ = (c.taken?.filter c.expectsReply).map (i, ·) := by rw [Connection.timer?_eq]
        _ = (c.taken?.map (i, ·)).filter f.expectsReply := by
          cases c.taken? with
          | none => rfl
          | some k => cases hExpects : c.expectsReply k <;> simp [Option.filter_some, hReply, hExpects]
  | _ => simp [startTimer, begun?]

theorem timed_endTimer (f : Fleet γ) (key : Nat × Nat) :
    (f.endTimer key).timed = f.timed.filter (· != key) := by
  simp [timed, endTimer, Scheduler.retain, List.filter_map, Function.comp_def]

theorem run_lapses (hStopped : f.scheduler.stopped = true) (keys : List (Nat × Nat)) :
    f.run (keys.map .lapse) = { f with scheduler := f.scheduler.retain (· ∉ keys) } := by
  induction keys generalizing f with
  | nil => simp [run, Scheduler.retain]
  | cons key keys ih =>
    have hLapse : f.step (.lapse key) = f.endTimer key := by
      simp only [step, mayLapse, hStopped, Bool.true_or, if_true]
    have hRest : f.run ((key :: keys).map .lapse) = (f.endTimer key).run (keys.map .lapse) := by
      rw [← hLapse]
      rfl
    have hBoth : (f.scheduler.retain (· != key)).retain (· ∉ keys) =
        f.scheduler.retain (· ∉ key :: keys) := by
      simp only [Scheduler.retain, List.filter_filter]
      congr 1
      apply List.filter_congr
      intro timer _
      by_cases hKey : timer.key = key <;> simp [hKey]
    rw [hRest, ih (f := f.endTimer key) hStopped, ← hBoth]
    rfl

/-- Once each of its timers has had a turn a scheduler that has been stopped has none. -/
theorem run_lapse_all (hStopped : f.scheduler.stopped = true) :
    f.run (f.timed.map .lapse) = { f with scheduler := f.scheduler.stop } := by
  have hNone : f.scheduler.timers.filter (fun timer => timer.key ∉ f.timed) = [] := by
    rw [List.filter_eq_nil_iff]
    intro timer hTimer
    have hTimed : timer.key ∈ f.timed := List.mem_map_of_mem hTimer
    simp [hTimed]
  rw [run_lapses hStopped, Scheduler.retain, hNone, Scheduler.stop, hStopped]

theorem mem_timed_of_mayFire (hFire : f.mayFire key = true) : key ∈ f.timed := by
  obtain ⟨timer, hTimer, hKey⟩ := List.any_eq_true.mp hFire
  simp only [Bool.and_eq_true, decide_eq_true_eq] at hKey
  exact List.mem_map.mpr ⟨timer, hTimer, hKey.1⟩

theorem isAtRest_iff : f.isAtRest = true ↔ ∀ timer ∈ f.scheduler.timers,
    f.scheduler.stopped = false ∧ f.isCompleted timer.key = false ∧ f.scheduler.now < timer.deadline := by
  simp [isAtRest, mayLapse, Scheduler.isDue, and_assoc]

theorem isCompleted_of_isAtRest (hRest : f.isAtRest = true) (hTimed : key ∈ f.timed) :
    f.isCompleted key = false := by
  obtain ⟨timer, hTimer, rfl⟩ := List.mem_map.mp hTimed
  exact (isAtRest_iff.mp hRest timer hTimer).2.1

theorem isCompleted_eq_false {m : Message} (hMessage : f.message? key = some m) :
    f.isCompleted key = false ↔ m.outcome = none := by
  simp [isCompleted, Message.isCompleted, hMessage]

/-- A timer that fires completes its message, unless that is done already. -/
theorem message?_fire (hFire : f.mayFire key = true) {m : Message} (hMessage : f.message? key = some m) :
    (f.step (.fire key)).message? key =
      some { m with outcome := m.outcome.or (some (.error (.responseTimeout m.timeout))) } := by
  obtain ⟨c, hc, hMessage⟩ := message?_eq_some.mp hMessage
  obtain ⟨handle, hExpire⟩ := c.expire_connection key.2 []
  have hStep : (f.step (.fire key)).connections = (f.onConnection key.1 (.expire key.2)).connections := by
    simp only [step, if_pos hFire]
    rfl
  rw [message?, hStep, getElem?_onConnection, hc, Option.map_some, if_pos rfl, Option.bind_some,
    Connection.step, hExpire, getElem?_settle, hMessage, Option.map_some, Option.bind_some, one, if_pos rfl]

theorem message?_fire_of_ne (hNe : other ≠ key) :
    (f.step (.fire key)).message? other = f.message? other := by
  simp only [step]
  split
  case isFalse => rfl
  case isTrue =>
    change ((f.onConnection key.1 (.expire key.2)).connections[other.1]?).bind _ = f.message? other
    rw [getElem?_onConnection, message?]
    cases hc : f.connections[other.1]? with
    | none => rfl
    | some c =>
      rw [Option.map_some, Option.bind_some, Option.bind_some]
      split
      case isFalse => rfl
      case isTrue hAt =>
        have hApart : other.2 ≠ key.2 := fun hSame => hNe (Prod.ext hAt.symm hSame)
        obtain ⟨handle, hExpire⟩ := c.expire_connection key.2 []
        rw [Connection.step, hExpire, getElem?_settle]
        cases c.messages[key.2]? <;> simp [one, hApart]

theorem connections_fire_of_completed (hCompleted : f.isCompleted key = true) :
    (f.step (.fire key)).connections = f.connections := by
  obtain ⟨m, hMessage, hOutcome⟩ := (Option.any_eq_true _ _).mp hCompleted
  obtain ⟨c, hc, hMessage⟩ := message?_eq_some.mp hMessage
  have hSame := Connection.step_expire_of_completed f.codec hMessage (Option.isSome_iff_ne_none.mp hOutcome)
  have hKept : (f.onConnection key.1 (.expire key.2)).connections = f.connections := by
    refine List.ext_getElem? fun i => ?_
    rw [getElem?_onConnection]
    by_cases hAt : key.1 = i
    · simp [← hAt, hc, hSame]
    · simp [hAt]
  simp only [step]
  split
  · exact hKept
  · rfl

/-- What an event is to the timers. -/
inductive Turns (f : Fleet γ) : Event γ → List (Nat × Nat) → Prop
  | started (event : Event γ) : Turns f event (f.timed ++ ((f.begun? event).filter f.expectsReply).toList)
  | fired {key : Nat × Nat} (hFire : f.mayFire key = true) :
    Turns f (.fire key) (f.timed.filter (· != key))
  | lapsed {key : Nat × Nat} (hLapse : f.mayLapse key = true) :
    Turns f (.lapse key) (f.timed.filter (· != key))

theorem turns_step (f : Fleet γ) (event : Event γ) : f.Turns event (f.step event).timed := by
  have hSame (hIdle : f.begun? event = none) : f.Turns event f.timed := by
    simpa [hIdle] using Turns.started (f := f) event
  cases event with
  | on i event =>
    have hStep : (f.step (.on i event)).timed = (f.startTimer i event).timed := rfl
    rw [hStep, timed_startTimer]
    exact .started (.on i event)
  | fire key =>
    simp only [step]
    split
    case isTrue hFire =>
      rw [timed_endTimer]
      exact .fired hFire
    case isFalse => exact hSame rfl
  | lapse key =>
    simp only [step]
    split
    case isTrue hLapse =>
      rw [timed_endTimer]
      exact .lapsed hLapse
    case isFalse => exact hSame rfl
  | opened | elapse | stop => exact hSame rfl

theorem stopped_step (hStopped : f.scheduler.stopped = true) (event : Event γ) :
    (f.step event).scheduler.stopped = true := by
  cases event with
  | on i event => exact (f.connections_startTimer i event).2.2.trans hStopped
  | fire key | lapse key =>
    simp only [step]
    split <;> exact hStopped
  | opened | elapse => exact hStopped
  | stop => rfl

theorem isCompleted_fire (hFire : f.mayFire key = true) {m : Message} (hMessage : f.message? key = some m) :
    (f.step (.fire key)).isCompleted key = true := by
  rw [isCompleted, message?_fire hFire hMessage, Option.any_some, Message.isCompleted, Option.isSome_or,
    Option.isSome_some, Bool.or_true]

/-- What is true of the timers as far as a run has come. -/
structure Sound (f : Fleet γ) (begun : List (Nat × Nat)) : Prop where
  tracks : f.Tracks begun
  needed : ∀ key ∈ f.timed, key ∈ begun ∧ f.expectsReply key = true
  distinct : f.timed.Nodup
  covered : f.scheduler.stopped = false → ∀ key ∈ begun, f.expectsReply key = true →
    f.isCompleted key = false → key ∈ f.timed

namespace Sound
variable {begun : List (Nat × Nat)}

theorem new (codec : Codec γ) : (Fleet.new codec).Sound [] where
  tracks := .new codec
  needed _ hTimed := by cases hTimed
  distinct := .nil
  covered _ _ hBegun := by cases hBegun

theorem needed_step (h : f.Sound begun) (hTimed : key ∈ (f.step event).timed) :
    key ∈ begun ++ (f.begun? event).toList ∧ (f.step event).expectsReply key = true := by
  have hNeeded : key ∈ begun ++ (f.begun? event).toList ∧ f.expectsReply key = true := by
    have hOld (hBefore : key ∈ f.timed) :
        key ∈ begun ++ (f.begun? event).toList ∧ f.expectsReply key = true :=
      (h.needed key hBefore).imp_left (List.mem_append_left _)
    have hTurns := f.turns_step event
    generalize (f.step event).timed = timed at hTurns hTimed
    cases hTurns with
    | fired | lapsed => exact hOld (List.mem_of_mem_filter hTimed)
    | started =>
      rcases List.mem_append.mp hTimed with hBefore | hNow
      · exact hOld hBefore
      · obtain ⟨hBegun, hReply⟩ := Option.filter_eq_some_iff.mp (Option.mem_toList.mp hNow)
        exact ⟨List.mem_append_right _ (Option.mem_toList.mpr hBegun), hReply⟩
  obtain ⟨m, hMessage⟩ := h.tracks.message_of_mem hNeeded.1
  exact ⟨hNeeded.1, ((f.keeps_step event).expectsReply hMessage).trans hNeeded.2⟩

theorem distinct_step (h : f.Sound begun) (event : Event γ) : (f.step event).timed.Nodup := by
  have hTurns := f.turns_step event
  generalize (f.step event).timed = timed at hTurns
  cases hTurns with
  | fired | lapsed => exact h.distinct.filter _
  | started =>
    refine nodup_append_toList h.distinct fun key hNow hBefore => ?_
    obtain ⟨hBegun, -⟩ := Option.filter_eq_some_iff.mp hNow
    exact (h.tracks.of_begun? hBegun).1 (h.needed key hBefore).1

theorem covered_step (h : f.Sound begun) (hRunning : (f.step event).scheduler.stopped = false)
    (hBegun : key ∈ begun ++ (f.begun? event).toList) (hReply : (f.step event).expectsReply key = true)
    (hWaits : (f.step event).isCompleted key = false) : key ∈ (f.step event).timed := by
  have hKeeps := f.keeps_step event
  -- a stop and an outcome are final, so the message waited before the event too
  have hStopped : f.scheduler.stopped = false := by
    rw [Bool.eq_false_iff] at hRunning ⊢
    exact fun hStopped => hRunning (stopped_step hStopped event)
  have hWaited : f.isCompleted key = false := by
    rw [Bool.eq_false_iff] at hWaits ⊢
    exact fun hCompleted => hWaits (hKeeps.isCompleted hCompleted)
  have hKey : key ∈ begun ∨ f.begun? event = some key :=
    (List.mem_append.mp hBegun).imp_right Option.mem_toList.mp
  obtain ⟨m, hMessage⟩ := h.tracks.message_of_mem hBegun
  rw [hKeeps.expectsReply hMessage] at hReply
  have hTurns := f.turns_step event
  generalize (f.step event).timed = timed at hTurns ⊢
  have hEnded {ended : Nat × Nat} (hIdle : f.begun? event = none)
      (hOver : key = ended → (f.step event).isCompleted ended = true) :
      key ∈ f.timed.filter (· != ended) := by
    have hBefore : key ∈ begun := hKey.resolve_right (by simp [hIdle])
    refine List.mem_filter.mpr ⟨h.covered hStopped key hBefore hReply hWaited, ?_⟩
    simp only [bne_iff_ne]
    intro hSame
    rw [hSame, hOver hSame] at hWaits
    cases hWaits
  cases hTurns with
  | started =>
    rcases hKey with hBefore | hNow
    · exact List.mem_append_left _ (h.covered hStopped key hBefore hReply hWaited)
    · exact List.mem_append_right _ (by simp [hNow, Option.filter_some, hReply])
  | fired hFire => exact hEnded rfl fun hSame => isCompleted_fire hFire (hSame ▸ hMessage)
  | lapsed hLapse =>
    refine hEnded rfl fun hSame => ?_
    simp only [mayLapse, hStopped, ← hSame, hWaited] at hLapse
    cases hLapse

theorem step (h : f.Sound begun) (event : Event γ) :
    (f.step event).Sound (begun ++ (f.begun? event).toList) where
  tracks := h.tracks.step event
  needed _ := h.needed_step
  distinct := h.distinct_step event
  covered hRunning _ := h.covered_step hRunning

theorem run (h : f.Sound begun) (events : List (Event γ)) :
    (f.run events).Sound (begun ++ f.begun events) := by
  induction events generalizing f begun with
  | nil => simpa [Fleet.run, Fleet.begun] using h
  | cons event events ih =>
    rw [Fleet.begun, ← List.append_assoc]
    exact ih (h.step event)

/-! What a state of this kind is like. -/

theorem running_eq (h : f.Sound begun) (hRest : f.isAtRest = true) (hRunning : f.scheduler.stopped = false) :
    f.scheduler.running = (begun.filter fun key => f.expectsReply key && !f.isCompleted key).length := by
  have hPerm : f.timed.Perm (begun.filter fun key => f.expectsReply key && !f.isCompleted key) := by
    rw [List.perm_ext_iff_of_nodup h.distinct (h.tracks.nodup.filter _)]
    intro key
    simp only [List.mem_filter, Bool.and_eq_true, Bool.not_eq_true']
    constructor
    · intro hTimed
      obtain ⟨hBegun, hReply⟩ := h.needed key hTimed
      exact ⟨hBegun, hReply, isCompleted_of_isAtRest hRest hTimed⟩
    · rintro ⟨hBegun, hReply, hWaits⟩
      exact h.covered hRunning key hBegun hReply hWaits
  rw [← hPerm.length_eq, timed, List.length_map, Scheduler.running]

theorem running_eq_zero (h : f.Sound begun) (hRest : f.isAtRest = true) (hEnded : f.allEnded = true) :
    f.scheduler.running = 0 := by
  have hNone : f.timed = [] := by
    rw [List.eq_nil_iff_forall_not_mem]
    intro key hTimed
    obtain ⟨m, hMessage⟩ := h.tracks.message (h.needed key hTimed).1
    obtain ⟨c, hc, hMessage'⟩ := message?_eq_some.mp hMessage
    have hTold := (h.tracks.connections _ c hc).attends.isCompleted
      (List.all_eq_true.mp hEnded c (List.mem_of_getElem? hc)) hMessage'
    exact hTold ((isCompleted_eq_false hMessage).mp (isCompleted_of_isAtRest hRest hTimed))
  rw [Scheduler.running, ← List.length_map (·.key), ← timed, hNone, List.length_nil]

/-- Which messages have been begun can be seen from the queues, as long as the connections are open. -/
theorem mem_begun_iff (h : f.Sound begun) {c : Connection γ} {m : Message}
    (hc : f.connections[key.1]? = some c) (hMessage : c.messages[key.2]? = some m)
    (hNone : m.outcome = none) : key ∈ begun ↔ key.2 ∉ c.queued := by
  obtain ⟨hAttends, ⟨j, hInStep, hBegun⟩, -⟩ := h.tracks.connections key.1 c hc
  obtain ⟨hOpen, -⟩ := hAttends key.2 m hMessage hNone
  have hLt := (List.getElem?_eq_some_iff.mp hMessage).1
  rw [hBegun hOpen key.2, hInStep.queued_iff hOpen (hInStep.length_messages ▸ hLt), not_not]

theorem mem_timed_iff (h : f.Sound begun) (hRest : f.isAtRest = true)
    (hRunning : f.scheduler.stopped = false) : key ∈ f.timed ↔
      f.expectsReply key = true ∧ f.isCompleted key = false ∧
        ∃ c, f.connections[key.1]? = some c ∧ key.2 ∉ c.queued := by
  constructor
  · intro hTimed
    obtain ⟨hBegun, hReply⟩ := h.needed key hTimed
    have hWaits := isCompleted_of_isAtRest hRest hTimed
    obtain ⟨m, hMessage⟩ := h.tracks.message hBegun
    obtain ⟨c, hc, hMessage'⟩ := message?_eq_some.mp hMessage
    have hNone := (isCompleted_eq_false hMessage).mp hWaits
    exact ⟨hReply, hWaits, c, hc, (h.mem_begun_iff hc hMessage' hNone).mp hBegun⟩
  · rintro ⟨hReply, hWaits, c, hc, hUnqueued⟩
    obtain ⟨m, hMessage, -⟩ := (Option.any_eq_true _ _).mp hReply
    obtain ⟨c', hc', hMessage'⟩ := message?_eq_some.mp hMessage
    obtain rfl : c = c' := Option.some.inj (hc.symm.trans hc')
    have hNone := (isCompleted_eq_false hMessage).mp hWaits
    exact h.covered hRunning key ((h.mem_begun_iff hc hMessage' hNone).mpr hUnqueued) hReply hWaits

/-- A timer that has ended does not come back. -/
theorem not_timed_run (h : f.Sound begun) (hBegun : key ∈ begun) (hEnded : key ∉ f.timed)
    (events : List (Event γ)) : key ∉ (f.run events).timed := by
  induction events generalizing f begun with
  | nil => exact hEnded
  | cons event events ih =>
    refine ih (h.step event) (List.mem_append_left _ hBegun) fun hTimed => ?_
    have hTurns := f.turns_step event
    generalize (f.step event).timed = timed at hTurns hTimed
    cases hTurns with
    | fired | lapsed => exact hEnded (List.mem_of_mem_filter hTimed)
    | started =>
      refine hEnded ((List.mem_append.mp hTimed).resolve_right fun hNow => ?_)
      obtain ⟨hBegun', -⟩ := Option.filter_eq_some_iff.mp (Option.mem_toList.mp hNow)
      exact (h.tracks.of_begun? hBegun').1 hBegun

theorem message?_fire_run (h : f.Sound begun) (hBegun : key ∈ begun) (hEnded : key ∉ f.timed)
    (later : List (Event γ)) (fired : Nat × Nat) :
    ((f.run later).step (.fire fired)).message? key = (f.run later).message? key := by
  by_cases hSame : key = fired
  · subst hSame
    have hIdle : ¬(f.run later).mayFire key = true := fun hFire =>
      h.not_timed_run hBegun hEnded later (mem_timed_of_mayFire hFire)
    simp only [Fleet.step, if_neg hIdle]
  · exact message?_fire_of_ne hSame

end Sound

/-- As long as the scheduler has not been stopped the timers that run, once each has run as far as it can, are
those of the messages that are written or being written and wait for a reply. Whatever the order in which
connections, timers and the clock go on, a timer that fires completes its own message and no other, and does
nothing at all if that is done already. A timer that a completed shutdown has waited for never fires. -/
theorem timers_follow_messages {γ : Type} (codec : Codec γ) (events : List (Event γ)) :
    let f := (new codec).run events
    let begun := (new codec).begun events
    begun.Nodup ∧
    (f.isAtRest = true → f.scheduler.stopped = false → f.scheduler.running =
      (begun.filter fun key => f.expectsReply key && !f.isCompleted key).length) ∧
    (∀ timer ∈ f.scheduler.timers, f.expectsReply timer.key = true) ∧
    (f.isAtRest = true → f.allEnded = true → f.scheduler.running = 0) ∧
    (∀ key, f.mayFire key = true →
      (∃ m, f.message? key = some m ∧ (f.step (.fire key)).message? key =
        some { m with outcome := m.outcome.or (some (.error (.responseTimeout m.timeout))) }) ∧
      (∀ other, other ≠ key → (f.step (.fire key)).message? other = f.message? other) ∧
      (f.isCompleted key = true → (f.step (.fire key)).connections = f.connections)) ∧
    (f.hasShutDown = true → ∀ later key fired, key ∈ begun →
      ((f.run later).step (.fire fired)).message? key = (f.run later).message? key) := by
  intro f begun
  have hSound : f.Sound begun := (Sound.new codec).run events
  refine ⟨hSound.tracks.nodup, hSound.running_eq, fun timer hTimer => ?_, hSound.running_eq_zero,
    fun key hFire => ⟨?_, fun other hNe => message?_fire_of_ne hNe, connections_fire_of_completed⟩,
    fun hOver later key fired hBegun => ?_⟩
  · exact (hSound.needed timer.key (List.mem_map_of_mem hTimer)).2
  · obtain ⟨hBegun, -⟩ := hSound.needed key (mem_timed_of_mayFire hFire)
    obtain ⟨m, hMessage⟩ := hSound.tracks.message hBegun
    exact ⟨m, hMessage, message?_fire hFire hMessage⟩
  · have hEnded : key ∉ f.timed := by
      simp only [hasShutDown, Bool.and_eq_true, List.isEmpty_iff] at hOver
      simp [timed, hOver.2]
    exact hSound.message?_fire_run hBegun hEnded later fired

/-- Both connections wait for a reply, and one of them is writing a message that expects none. -/
def twoWaiting : List (Event Unit) :=
  [.opened false (), .opened false (), .on 0 (.send (.new [97] ⟨1000⟩)), .on 0 (.send (.new [98] ⟨0⟩)),
    .on 1 (.send (.new [99] ⟨500⟩)), .on 0 .turn, .on 1 .turn, .on 0 (.written 2), .on 0 .flushed,
    .on 0 .turn]

/-- The scheduler is stopped while the first connection still waits. -/
def oneOverdue : List (Event Unit) :=
  twoWaiting ++ [.elapse ⟨600⟩, .fire (1, 0), .stop, .lapse (0, 0)]

theorem timers_follow_messages_twoWaiting :
    let waiting := (new .lines).run twoWaiting
    let due := (new .lines).run (twoWaiting ++ [.elapse ⟨600⟩])
    let stopped := (new .lines).run oneOverdue
    waiting.isAtRest = true ∧ waiting.scheduler.running = 2 ∧
      due.mayFire (1, 0) = true ∧ (due.step (.fire (1, 0))).isCompleted (1, 0) = true ∧
      stopped.hasShutDown = true ∧
      ((stopped.run [.elapse ⟨1000⟩]).step (.fire (0, 0))).isCompleted (0, 0) = false := by
  intro waiting due stopped
  obtain ⟨-, hRunning, -⟩ := timers_follow_messages .lines twoWaiting
  obtain ⟨-, -, -, -, hFire, -⟩ := timers_follow_messages .lines (twoWaiting ++ [.elapse ⟨600⟩])
  obtain ⟨-, -, -, -, -, hNever⟩ := timers_follow_messages .lines oneOverdue
  have hRest : waiting.isAtRest = true := by decide +kernel
  have hDue : due.mayFire (1, 0) = true := by decide +kernel
  have hOver : stopped.hasShutDown = true := by decide +kernel
  refine ⟨hRest, (hRunning hRest (by decide +kernel)).trans (by decide +kernel), hDue, ?_, hOver, ?_⟩
  · obtain ⟨⟨m, -, hFired⟩, -⟩ := hFire (1, 0) hDue
    rw [isCompleted, hFired, Option.any_some, Message.isCompleted, Option.isSome_or, Option.isSome_some,
      Bool.or_true]
  · rw [isCompleted, hNever hOver [.elapse ⟨1000⟩] (0, 0) (0, 0) (by decide +kernel)]
    decide +kernel

end Fleet
end Switchyard.Client
