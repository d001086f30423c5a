import Switchyard.Proofs.Client.Moves

/-! # What an event gives to the messages

Either the connection lives on, and at most one message is completed, or it ends, and everyone who
still waits is told. Here stands which message is completed by what, and with which outcome.
-/
namespace Switchyard.Client
open Net
set_option autoImplicit false

namespace Connection
variable {γ : Type}

/-- Where a message is on its way to an outcome. Once written, one that expects no reply is done. -/
def Waits (c : Connection γ) (k : Nat) (m : Message) : Prop :=
  k ∈ c.queued ∨ c.writing = some k ∧ m.expectsResponse = false ∨ k ∈ c.pending

/-- What an event gives to the messages of a connection that lives on. -/
inductive Gives (codec : Codec γ) (c : Connection γ) : ConnectionEvent → (Nat → Option Outcome) → Prop
  | nothing {event : ConnectionEvent} (hUnsent : event = .flushed → c.awaited = .flush →
      ∀ k, c.writing = some k → c.expectsReply k = true) : Gives codec c event fun _ => none
  | stranger (k : Nat) (outcome : Outcome) : Gives codec c (.complete k outcome) (one k outcome)
  | timeout {k : Nat} {m : Message} (hMessage : c.messages[k]? = some m) :
    Gives codec c (.expire k) (one k (.error (.responseTimeout m.timeout)))
  | reply {k : Nat} {others : List Nat} {payload rest : Bytes} {state : γ} (hNext : c.next = .decode)
    (hDecoded : c.decoded codec = .ok (some (payload, rest, state))) (hDue : c.pending = k :: others) :
    Gives codec c .turn (one k (.ok (some { payload, connection := c.id })))
  | sent {k : Nat} (hAwaited : c.awaited = .flush) (hWriting : c.writing = some k)
    (hReply : c.expectsReply k = false) : Gives codec c .flushed (one k (.ok none))

/-- How a connection ends, and what the message in the middle of its way gets before all the others
are told. -/
inductive Ends (codec : Codec γ) (c : Connection γ) :
    ConnectionEvent → (Nat → Option Outcome) → Termination → Prop
  | interrupted {k : Nat} (hNext : c.next = .shut) (hWriting : c.writing = some k) :
    Ends codec c .turn (one k (.error (.connectionClosed c.id))) .closed
  | shut (hNext : c.next = .shut) (hWriting : c.writing = none) :
    Ends codec c .turn (fun _ => none) .closed
  | left (hNext : c.next = .leave) : Ends codec c .turn (fun _ => none) .closed
  | refused {k : Nat} {m : Message} {cause : String} (hNext : c.next = .take k m)
    (hEncode : codec.encode c.codec m.payload = .error cause) :
    Ends codec c .turn (one k (.error (.connectionFailed c.id cause))) (.failed (.io cause))
  | unwritten {k : Nat} (cause : String) (hAwaited : c.awaited = .write ∨ c.awaited = .flush)
    (hWriting : c.writing = some k) :
    Ends codec c (.writeFailed cause)
      (fun i => if c.expectsReply k then none else one k (.error (.connectionFailed c.id cause)) i)
      (.failed (.io cause))
  | undecodable {cause : String} (hNext : c.next = .decode) (hDecoded : c.decoded codec = .error cause) :
    Ends codec c .turn (fun _ => none) (.failed (.io cause))
  | unexpected {frame : Bytes × Bytes × γ} (hNext : c.next = .decode)
    (hDecoded : c.decoded codec = .ok (some frame)) (hDue : c.pending = []) :
    Ends codec c .turn (fun _ => none) (.failed c.unexpected)
  | disconnected (hNext : c.next = .decode) (hDecoded : c.decoded codec = .ok none) :
    Ends codec c .turn (fun _ => none) .disconnected
  | unread (cause : String) (hAwaited : c.awaited = .read) :
    Ends codec c (.readFailed cause) (fun _ => none) (.failed (.io cause))

/-- What a message gets from the end of its connection. -/
inductive Dismissal (id : ConnectionId) : Outcome → Prop
  | closed : Dismissal id (.error (.connectionClosed id))
  | failed (cause : String) : Dismissal id (.error (.connectionFailed id cause))
  | cancelled : Dismissal id (.error .cancelled)

/-- The message that an event adds. -/
def joins (c : Connection γ) : ConnectionEvent → List Message
  | .send m =>
    match c.send m with
    | .ok _ => [{ m with connection := some c.id }]
    | .error _ => []
  | _ => []

/-- Whether an event leaves the end of a connection as it is, and gives to the messages what the
event gives. A message that gets nothing goes on waiting. -/
def LivesOn (codec : Codec γ) (c : Connection γ) (event : ConnectionEvent) : Prop :=
  (c.step codec event).termination = c.termination ∧
    ∃ given, Gives codec c event given ∧
      (c.step codec event).messages = settle given c.messages ++ c.joins event ∧
      ∀ k m, c.messages[k]? = some m → c.Waits k m → given k = none → (c.step codec event).Waits k m

/-- Whether an event is the end of a connection, which then tells all of its messages. -/
def EndsWith (codec : Codec γ) (c : Connection γ) (event : ConnectionEvent) : Prop :=
  c.termination = none ∧ ∃ own termination, Ends codec c event own termination ∧
    (c.step codec event).termination = some termination ∧
    (c.step codec event).messages =
      settle (fun k => (own k).or (c.parting termination k)) c.messages

theorem livesOn_of_gives {codec : Codec γ} {c after : Connection γ} {event : ConnectionEvent}
    {given : Nat → Option Outcome} (hGives : Gives codec c event given)
    (hStep : c.step codec event = after) (hTermination : after.termination = c.termination)
    (hMessages : after.messages = settle given c.messages) (hJoins : c.joins event = [])
    (hWaits : ∀ k m, c.messages[k]? = some m → c.Waits k m → given k = none → after.Waits k m) :
    c.LivesOn codec event := by
  subst hStep
  exact ⟨hTermination, given, hGives, by rw [hMessages, hJoins, List.append_nil], hWaits⟩

theorem livesOn_of_same {codec : Codec γ} {c after : Connection γ} {event : ConnectionEvent}
    (hUnsent : event = .flushed → c.awaited = .flush →
      ∀ k, c.writing = some k → c.expectsReply k = true)
    (hStep : c.step codec event = after) (hTermination : after.termination = c.termination)
    (hMessages : after.messages = c.messages) (hJoins : c.joins event = [])
    (hWaits : ∀ k m, c.messages[k]? = some m → c.Waits k m → after.Waits k m) : c.LivesOn codec event :=
  livesOn_of_gives (.nothing hUnsent) hStep hTermination (by rw [settle_none, hMessages]) hJoins
    fun k m hMessage hWaits' _ => hWaits k m hMessage hWaits'

theorem endsWith_of_finish {codec : Codec γ} {c stopped : Connection γ} {event : ConnectionEvent}
    {own : Nat → Option Outcome} {termination : Termination} (hOpen : c.termination = none)
    (hEnds : Ends codec c event own termination)
    (hStep : c.step codec event = stopped.finish termination)
    (hMessages : stopped.messages = settle own c.messages)
    (hParting : ∀ k, own k = none → stopped.parting termination k = c.parting termination k) :
    c.EndsWith codec event := by
  have hGiven : (fun k => (own k).or (stopped.parting termination k)) =
      fun k => (own k).or (c.parting termination k) := funext fun k => by
    cases hOwn : own k with
    | none => rw [hParting k hOwn]
    | some outcome => rfl
  refine ⟨hOpen, own, termination, hEnds, by rw [hStep, termination_finish], ?_⟩
  rw [hStep, finish_eq, hMessages, settle_settle, hGiven]

theorem effect_decode {codec : Codec γ} {c : Connection γ} (hNext : c.next = .decode) :
    c.LivesOn codec .turn ∨ c.EndsWith codec .turn := by
  obtain ⟨hOpen, -, -, -⟩ := hNext ▸ c.allowed_next
  have hStep : c.step codec .turn = c.decode codec := by simp [step, turn, hNext]
  unfold decode at hStep
  cases hDecoded : c.decoded codec with
  | error cause =>
    rw [hDecoded] at hStep
    exact .inr (endsWith_of_finish hOpen (.undecodable hNext hDecoded) hStep (settle_none _).symm
      fun _ _ => rfl)
  | ok found =>
    rw [hDecoded] at hStep
    cases found with
    | none =>
      simp only at hStep
      split at hStep
      · exact .inr (endsWith_of_finish hOpen (.disconnected hNext hDecoded) hStep (settle_none _).symm
          fun _ _ => rfl)
      · exact .inl (livesOn_of_same nofun hStep rfl rfl rfl fun _ _ _ hWaits => hWaits)
    | some frame =>
      obtain ⟨payload, rest, state⟩ := frame
      simp only at hStep
      cases hDue : c.pending with
      | nil =>
        rw [deliver_of_nil (c := { c with incoming := rest, codec := state }) hDue] at hStep
        exact .inr (endsWith_of_finish hOpen (.unexpected hNext hDecoded hDue) hStep
          (settle_none _).symm fun _ _ => rfl)
      | cons k others =>
        rw [deliver_of_cons (c := { c with incoming := rest, codec := state }) hDue, complete_eq] at hStep
        refine .inl (livesOn_of_gives (.reply hNext hDecoded hDue) hStep rfl rfl rfl
          fun i m _ hWaits hOther => ?_)
        have hNe : i ≠ k := fun hEq => by simp [one, hEq] at hOther
        rcases hWaits with hQueued | hWriting | hPending
        · exact .inl hQueued
        · exact .inr (.inl hWriting)
        · rw [hDue] at hPending
          exact .inr (.inr ((List.mem_cons.mp hPending).resolve_left hNe))

theorem effect_take {codec : Codec γ} {c : Connection γ} {k : Nat} {m : Message}
    (hNext : c.next = .take k m) : c.LivesOn codec .turn ∨ c.EndsWith codec .turn := by
  obtain ⟨hOpen, -, hIdle, hMessage, hQueued⟩ := hNext ▸ c.allowed_next
  have hStep : c.step codec .turn =
      { c with queued := c.queued.tail : Connection γ }.begin codec k m := by simp [step, turn, hNext]
  unfold begin at hStep
  cases hEncode : codec.encode c.codec m.payload with
  | ok encoded =>
    rw [hEncode] at hStep
    refine .inl (livesOn_of_same nofun hStep rfl rfl rfl fun i m' hMessage' hWaits => ?_)
    rcases hWaits with hWaiting | ⟨hWriting, -⟩ | hPending
    · rw [hQueued] at hWaiting
      rcases List.mem_cons.mp hWaiting with rfl | hLater
      · obtain rfl : m = m' := Option.some.inj (hMessage.symm.trans hMessage')
        cases hReply : m.expectsResponse with
        | false => exact .inr (.inl ⟨rfl, hReply⟩)
        | true => exact .inr (.inr (by simp))
      · exact .inl hLater
    · cases hIdle.symm.trans hWriting
    · right
      right
      cases m.expectsResponse with
      | false => exact hPending
      | true => exact List.mem_append_left _ hPending
  | error cause =>
    rw [hEncode] at hStep
    simp only [complete_eq] at hStep
    refine .inr (endsWith_of_finish hOpen (.refused hNext hEncode) hStep rfl fun i hOwn => ?_)
    have hNe : i ≠ k := fun hEq => by simp [one, hEq] at hOwn
    unfold parting each
    rw [hQueued]
    simp only [List.mem_cons, hNe, false_or]
    rfl

theorem effect_turn (codec : Codec γ) (c : Connection γ) :
    c.LivesOn codec .turn ∨ c.EndsWith codec .turn := by
  cases hNext : c.next with
  | take k m => exact effect_take hNext
  | decode => exact effect_decode hNext
  | rest =>
    have hStep : c.step codec .turn = c := by simp [step, turn, hNext]
    exact .inl (livesOn_of_same nofun hStep rfl rfl rfl fun _ _ _ hWaits => hWaits)
  | leave =>
    obtain ⟨hOpen, -, -, -⟩ := hNext ▸ c.allowed_next
    have hStep : c.step codec .turn = c.finish .closed := by simp [step, turn, hNext]
    exact .inr (endsWith_of_finish hOpen (.left hNext) hStep (settle_none _).symm fun _ _ => rfl)
  | shut =>
    obtain ⟨hOpen, -⟩ := hNext ▸ c.allowed_next
    have hStep : c.step codec .turn = c.shut := by simp [step, turn, hNext]
    unfold shut at hStep
    cases hWriting : c.writing with
    | none =>
      rw [hWriting] at hStep
      exact .inr (endsWith_of_finish hOpen (.shut hNext hWriting) hStep (settle_none _).symm
        fun _ _ => rfl)
    | some k =>
      rw [hWriting] at hStep
      simp only [complete_eq] at hStep
      exact .inr (endsWith_of_finish hOpen (.interrupted hNext hWriting) hStep rfl fun _ _ => rfl)

theorem effect_flushed (codec : Codec γ) (c : Connection γ) : c.LivesOn codec .flushed := by
  have hStep : c.step codec .flushed = c.flushed := rfl
  unfold flushed at hStep
  cases hAwaited : c.awaited with
  | nothing | write | read =>
    rw [hAwaited] at hStep
    exact livesOn_of_same (fun _ hFlush => by cases hAwaited.symm.trans hFlush) hStep rfl rfl rfl
      fun _ _ _ hWaits => hWaits
  | flush =>
    obtain ⟨-, -, hWriting, -⟩ := hAwaited ▸ c.allowed_awaited
    obtain ⟨k, hk⟩ := Option.isSome_iff_exists.mp hWriting
    rw [hAwaited, hk] at hStep
    simp only at hStep
    split at hStep
    case isTrue hReply =>
      refine livesOn_of_same (fun _ _ i hi => ?_) hStep rfl rfl rfl fun i m hMessage hWaits => ?_
      · obtain rfl : k = i := Option.some.inj (hk.symm.trans hi)
        exact hReply
      · rcases hWaits with hQueued | ⟨hWritten, hSilent⟩ | hPending
        · exact .inl hQueued
        · obtain rfl : k = i := Option.some.inj (hk.symm.trans hWritten)
          cases hSilent.symm.trans ((expectsReply_of_message hMessage).symm.trans hReply)
        · exact .inr (.inr hPending)
    case isFalse hReply =>
      rw [complete_eq] at hStep
      refine livesOn_of_gives (.sent hAwaited hk (Bool.eq_false_iff.mpr hReply)) hStep rfl rfl rfl
        fun i m hMessage hWaits hOther => ?_
      rcases hWaits with hQueued | ⟨hWritten, -⟩ | hPending
      · exact .inl hQueued
      · obtain rfl : k = i := Option.some.inj (hk.symm.trans hWritten)
        simp [one] at hOther
      · exact .inr (.inr hPending)

theorem effect_writeFailed (codec : Codec γ) (c : Connection γ) (cause : String) :
    c.LivesOn codec (.writeFailed cause) ∨ c.EndsWith codec (.writeFailed cause) := by
  have hStep : c.step codec (.writeFailed cause) = c.writeFailed cause := rfl
  unfold writeFailed at hStep
  have hFailed (hOpen : c.termination = none) (k : Nat) (hWriting : c.writing = some k)
      (hAwaited : c.awaited = .write ∨ c.awaited = .flush)
      (h : c.step codec (.writeFailed cause) =
        (if c.expectsReply k then c
          else c.complete k (.error (.connectionFailed c.id cause))).finish (.failed (.io cause))) :
      c.EndsWith codec (.writeFailed cause) := by
    refine endsWith_of_finish hOpen (.unwritten cause hAwaited hWriting) h ?_ fun i _ => ?_
    · split
      · exact (settle_none _).symm
      · rw [complete_eq]
    · split <;> rfl
  cases hAwaited : c.awaited with
  | nothing | read =>
    rw [hAwaited] at hStep
    exact .inl (livesOn_of_same nofun hStep rfl rfl rfl fun _ _ _ hWaits => hWaits)
  | write =>
    obtain ⟨hOpen, -, hWriting⟩ := hAwaited ▸ c.allowed_awaited
    obtain ⟨k, hk⟩ := Option.isSome_iff_exists.mp hWriting
    rw [hAwaited, hk] at hStep
    exact .inr (hFailed hOpen k hk (.inl hAwaited) hStep)
  | flush =>
    obtain ⟨hOpen, -, hWriting, -⟩ := hAwaited ▸ c.allowed_awaited
    obtain ⟨k, hk⟩ := Option.isSome_iff_exists.mp hWriting
    rw [hAwaited, hk] at hStep
    exact .inr (hFailed hOpen k hk (.inr hAwaited) hStep)

theorem effect_send (codec : Codec γ) (c : Connection γ) (m : Message) : c.LivesOn codec (.send m) := by
  cases hSend : c.send m with
  | error cause =>
    have hStep : c.step codec (.send m) = c := by simp [step, hSend, Except.map, Except.toOption]
    exact livesOn_of_same nofun hStep rfl rfl (by simp [joins, hSend]) fun _ _ _ hWaits => hWaits
  | ok accepted =>
    obtain ⟨k, sent⟩ := accepted
    have hStep : c.step codec (.send m) = sent := by simp [step, hSend, Except.map, Except.toOption]
    obtain ⟨-, -, -, hSent⟩ := send_eq_ok hSend
    subst hSent
    refine ⟨by rw [hStep], _, .nothing nofun, ?_, fun i m' _ hWaits _ => ?_⟩
    · rw [settle_none, hStep]
      simp [joins, hSend]
    · rw [hStep]
      exact hWaits.imp_left (List.mem_append_left _)

theorem effect_expire (codec : Codec γ) (c : Connection γ) (k : Nat) : c.LivesOn codec (.expire k) := by
  obtain ⟨handle, hStep⟩ := c.expire_connection k []
  cases hMessage : c.messages[k]? with
  | none =>
    rw [hMessage] at hStep
    exact livesOn_of_same nofun hStep rfl (settle_none _) rfl fun _ _ _ hWaits => hWaits
  | some m =>
    rw [hMessage] at hStep
    exact livesOn_of_gives (.timeout hMessage) hStep rfl rfl rfl fun _ _ _ hWaits _ => hWaits

/-- What an event is to the messages of a connection. -/
theorem livesOn_or_endsWith (codec : Codec γ) (c : Connection γ) (event : ConnectionEvent) :
    c.LivesOn codec event ∨ c.EndsWith codec event := by
  cases event with
  | send m => exact .inl (effect_send codec c m)
  | complete k outcome =>
    exact .inl (livesOn_of_gives (.stranger k outcome) (complete_eq c k outcome) rfl rfl rfl
      fun _ _ _ hWaits _ => hWaits)
  | close | cancelParent | dropSender =>
    exact .inl (livesOn_of_same nofun rfl rfl rfl rfl fun _ _ _ hWaits => hWaits)
  | expire k => exact .inl (effect_expire codec c k)
  | turn => exact effect_turn codec c
  | written n =>
    have hStep : c.step codec (.written n) = c.written n := rfl
    unfold written at hStep
    split at hStep <;>
      exact .inl (livesOn_of_same nofun hStep rfl rfl rfl fun _ _ _ hWaits => hWaits)
  | flushed => exact .inl (effect_flushed codec c)
  | writeFailed cause => exact effect_writeFailed codec c cause
  | received data =>
    have hStep : c.step codec (.received data) = c.received data := rfl
    unfold received at hStep
    split at hStep <;>
      exact .inl (livesOn_of_same nofun hStep rfl rfl rfl fun _ _ _ hWaits => hWaits)
  | readFailed cause =>
    by_cases hAwaited : c.awaited = .read
    · obtain ⟨hOpen, -, -, -⟩ := hAwaited ▸ c.allowed_awaited
      have hStep : c.step codec (.readFailed cause) = c.finish (.failed (.io cause)) := by
        simp [step, readFailed, hAwaited]
      exact .inr (endsWith_of_finish hOpen (.unread cause hAwaited) hStep (settle_none _).symm
        fun _ _ => rfl)
    · have hStep : c.step codec (.readFailed cause) = c := by simp [step, readFailed, hAwaited]
      exact .inl (livesOn_of_same nofun hStep rfl rfl rfl fun _ _ _ hWaits => hWaits)

/-- Events add messages and change no message's content. -/
theorem contents_step (codec : Codec γ) (c : Connection γ) (event : ConnectionEvent) :
    c.contents <+: (c.step codec event).contents := by
  rcases livesOn_or_endsWith codec c event with hLives | hEnds
  · obtain ⟨-, given, -, hMessages, -⟩ := hLives
    rw [contents, contents, hMessages, List.map_append, map_content_settle]
    exact List.prefix_append _ _
  · obtain ⟨-, own, termination, -, -, hMessages⟩ := hEnds
    have hSame : (c.step codec event).contents = c.contents := by
      rw [contents, hMessages, map_content_settle, contents]
    exact hSame ▸ List.prefix_refl _

/-- An outcome is final. -/
theorem getElem?_step_of_completed (codec : Codec γ) {c : Connection γ} (event : ConnectionEvent) {k : Nat}
    {m : Message} (hMessage : c.messages[k]? = some m) (hCompleted : m.outcome ≠ none) :
    (c.step codec event).messages[k]? = some m := by
  have hKept (given : Nat → Option Outcome) : (settle given c.messages)[k]? = some m := by
    obtain ⟨outcome, hOutcome⟩ := Option.ne_none_iff_exists'.mp hCompleted
    rw [getElem?_settle, hMessage, Option.map_some, hOutcome, Option.some_or, ← hOutcome]
  rcases livesOn_or_endsWith codec c event with hLives | hEnds
  · obtain ⟨-, given, -, hMessages, -⟩ := hLives
    have hLt := (List.getElem?_eq_some_iff.mp hMessage).1
    rw [hMessages, List.getElem?_append_left (by rwa [length_settle]), hKept]
  · obtain ⟨-, own, termination, -, -, hMessages⟩ := hEnds
    rw [hMessages, hKept]

/-! What the end of a connection is to a single message. -/

section Ends
variable {codec : Codec γ} {c : Connection γ} {event : ConnectionEvent} {own : Nat → Option Outcome}
  {termination : Termination} {k : Nat}

theorem parting_of_queued (hQueued : k ∈ c.queued) (termination : Termination) :
    c.parting termination k = some (.error (.connectionClosed c.id)) := by
  simp [parting, each, hQueued]

theorem parting_of_pending (hBegun : k ∉ c.queued) (hPending : k ∈ c.pending)
    (termination : Termination) : c.parting termination k = some (c.pendingOutcome termination) := by
  simp [parting, each, hBegun, hPending]

/-- A message in the middle of its way is told of itself, unless a reply to it is due. -/
theorem Ends.own_of_writing (h : Ends codec c event own termination) (hWriting : c.writing = some k) :
    (event = .turn ∧ termination = .closed ∧ own k = some (.error (.connectionClosed c.id))) ∨
      ∃ cause, event = .writeFailed cause ∧ termination = .failed (.io cause) ∧
        own k = if c.expectsReply k then none else some (.error (.connectionFailed c.id cause)) := by
  have hIdle : c.writing ≠ none := by simp [hWriting]
  cases h with
  | interrupted hNext hStalled =>
    cases hStalled.symm.trans hWriting
    exact .inl ⟨rfl, rfl, by simp [one]⟩
  | unwritten cause hAwaited hStalled =>
    cases hStalled.symm.trans hWriting
    exact .inr ⟨cause, rfl, rfl, by simp [one]⟩
  | shut hNext hStalled => exact absurd hStalled hIdle
  | left hNext | refused hNext | undecodable hNext | unexpected hNext | disconnected hNext =>
    have hAllowed := hNext ▸ c.allowed_next
    exact absurd hAllowed.2.2.1 hIdle
  | unread cause hAwaited =>
    have hAllowed := hAwaited ▸ c.allowed_awaited
    exact absurd hAllowed.2.2.1 hIdle

/-- Of the others only one that cannot be encoded is told of itself. -/
theorem Ends.own_of_not_writing (h : Ends codec c event own termination)
    (hWriting : c.writing ≠ some k) :
    own k = none ∨ ∃ m cause, c.next = .take k m ∧ codec.encode c.codec m.payload = .error cause ∧
      own k = some (.error (.connectionFailed c.id cause)) := by
  cases h with
  | @interrupted i hNext hStalled =>
    have hNe : k ≠ i := fun hEq => hWriting (hEq ▸ hStalled)
    exact .inl (by simp [one, hNe])
  | @unwritten i cause hAwaited hStalled =>
    have hNe : k ≠ i := fun hEq => hWriting (hEq ▸ hStalled)
    exact .inl (by simp [one, hNe])
  | @refused i m cause hNext hEncode =>
    by_cases hEq : k = i
    · subst hEq
      exact .inr ⟨m, cause, hNext, hEncode, by simp [one]⟩
    · exact .inl (by simp [one, hEq])
  | _ => exact .inl rfl

theorem Ends.own_of_refused (h : Ends codec c event own termination) {m : Message} {cause : String}
    (hNext : c.next = .take k m) (hEncode : codec.encode c.codec m.payload = .error cause) :
    own k = some (.error (.connectionFailed c.id cause)) := by
  obtain ⟨-, -, hIdle, -, hQueued⟩ := hNext ▸ c.allowed_next
  cases h with
  | refused hNext' hEncode' =>
    cases hNext'.symm.trans hNext
    cases hEncode'.symm.trans hEncode
    simp [one]
  | interrupted hNext' | shut hNext' | left hNext' | undecodable hNext' | unexpected hNext'
  | disconnected hNext' => cases hNext'.symm.trans hNext
  | unwritten cause hAwaited hWriting => cases hIdle.symm.trans hWriting
  | unread cause hAwaited =>
    obtain ⟨-, -, -, hEmpty⟩ := hAwaited ▸ c.allowed_awaited
    cases hEmpty.symm.trans hQueued

/-- Nobody who waits is forgotten. -/
theorem Ends.given_of_waits (h : Ends codec c event own termination) {m : Message}
    (hMessage : c.messages[k]? = some m) (hWaits : c.Waits k m) :
    (own k).or (c.parting termination k) ≠ none := by
  intro hNone
  obtain ⟨hOwn, hParting⟩ := Option.or_eq_none_iff.mp hNone
  by_cases hQueued : k ∈ c.queued
  · rw [parting_of_queued hQueued] at hParting
    cases hParting
  · rcases hWaits.resolve_left hQueued with ⟨hWriting, hSilent⟩ | hPending
    · have hReply := (expectsReply_of_message hMessage).trans hSilent
      rcases h.own_of_writing hWriting with ⟨-, -, hGiven⟩ | ⟨cause, -, -, hGiven⟩ <;>
        simp [hReply, hOwn] at hGiven
    · rw [parting_of_pending hQueued hPending] at hParting
      cases hParting

theorem Ends.dismissal (h : Ends codec c event own termination) {outcome : Outcome}
    (hGiven : (own k).or (c.parting termination k) = some outcome) : Dismissal c.id outcome := by
  have hParting (hGiven : c.parting termination k = some outcome) : Dismissal c.id outcome := by
    by_cases hQueued : k ∈ c.queued
    · rw [parting_of_queued hQueued] at hGiven
      cases hGiven
      exact .closed
    · by_cases hPending : k ∈ c.pending
      · rw [parting_of_pending hQueued hPending] at hGiven
        cases hGiven
        cases termination with
        | closed | disconnected => exact .cancelled
        | failed cause => exact .failed cause.message
      · simp [parting, each, hQueued, hPending] at hGiven
  rcases Option.or_eq_some_iff.mp hGiven with hOwn | ⟨-, hLater⟩
  · by_cases hWriting : c.writing = some k
    · rcases h.own_of_writing hWriting with ⟨-, -, hClosed⟩ | ⟨cause, -, -, hFailed⟩
      · cases hClosed.symm.trans hOwn
        exact .closed
      · rw [hFailed] at hOwn
        split at hOwn <;> cases hOwn
        exact .failed cause
    · rcases h.own_of_not_writing hWriting with hNone | ⟨m, cause, -, -, hFailed⟩
      · cases hNone.symm.trans hOwn
      · cases hFailed.symm.trans hOwn
        exact .failed cause
  · exact hParting hLater

end Ends

end Connection
end Switchyard.Client
