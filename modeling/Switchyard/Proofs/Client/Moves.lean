import Switchyard.Client.Connection

/-! # The moves of a connection

What each operation of a connection changes, as an equation, and when the task of a connection makes
which move. Completing messages is settling the list of them; it changes nothing else.
-/
namespace Switchyard.Client
open Net
set_option autoImplicit false

/-- Every message keeps its outcome if it has one, and otherwise gets what is given to it. -/
def settle (given : Nat → Option Outcome) (messages : List Message) : List Message :=
  messages.mapIdx fun k m => { m with outcome := m.outcome.or (given k) }

def one (k : Nat) (outcome : Outcome) (i : Nat) : Option Outcome := if i = k then some outcome else none

def each (ks : List Nat) (outcome : Outcome) (i : Nat) : Option Outcome :=
  if i ∈ ks then some outcome else none

theorem one_eq_some {k i : Nat} {given outcome : Outcome} :
    one k given i = some outcome ↔ i = k ∧ outcome = given := by
  unfold one
  split <;> simp_all [eq_comm]

theorem getElem?_settle (given : Nat → Option Outcome) (messages : List Message) (k : Nat) :
    (settle given messages)[k]? =
      (messages[k]?).map fun m => { m with outcome := m.outcome.or (given k) } := by
  rw [settle, List.getElem?_mapIdx]

@[simp] theorem length_settle (given : Nat → Option Outcome) (messages : List Message) :
    (settle given messages).length = messages.length := by
  rw [settle, List.length_mapIdx]

@[simp] theorem settle_none (messages : List Message) : settle (fun _ => none) messages = messages := by
  refine List.ext_getElem? fun k => ?_
  rw [getElem?_settle]
  simp

theorem settle_settle (first second : Nat → Option Outcome) (messages : List Message) :
    settle second (settle first messages) = settle (fun k => (first k).or (second k)) messages := by
  refine List.ext_getElem? fun k => ?_
  simp [getElem?_settle, Option.or_assoc, Function.comp_def]

/-- What a message asks for, which no outcome changes. -/
def Message.content (m : Message) : Bytes × Duration := (m.payload, m.timeout)

@[simp] theorem map_content_settle (given : Nat → Option Outcome) (messages : List Message) :
    (settle given messages).map Message.content = messages.map Message.content := by
  refine List.ext_getElem? fun k => ?_
  rw [List.getElem?_map, List.getElem?_map, getElem?_settle, Option.map_map]
  rfl

namespace Message

theorem complete_snd (m : Message) (outcome : Outcome) :
    (m.complete outcome).2 = { m with outcome := m.outcome.or (some outcome) } := by
  obtain ⟨payload, timeout, connection, _ | old⟩ := m <;> rfl

theorem expire_snd (m : Message) (h : Handle) (metrics : Metrics) :
    (m.expire h metrics).2.1 =
      { m with outcome := m.outcome.or (some (.error (.responseTimeout m.timeout))) } := by
  obtain ⟨payload, timeout, connection, _ | old⟩ := m <;> rfl

end Message

namespace Connection
variable {γ : Type}

def contents (c : Connection γ) : List (Bytes × Duration) := c.messages.map Message.content

theorem complete_eq (c : Connection γ) (k : Nat) (outcome : Outcome) :
    c.complete k outcome = { c with messages := settle (one k outcome) c.messages } := by
  have hMessages : c.messages.modify k (fun m => (m.complete outcome).2) =
      settle (one k outcome) c.messages := by
    refine List.ext_getElem? fun i => ?_
    rw [List.getElem?_modify, getElem?_settle]
    by_cases h : k = i
    · subst h
      simp [one, Message.complete_snd]
    · simp [one, h, Ne.symm h]
  rw [complete, hMessages]

theorem completeAll_eq (c : Connection γ) (ks : List Nat) (outcome : Outcome) :
    c.completeAll ks outcome = { c with messages := settle (each ks outcome) c.messages } := by
  induction ks generalizing c with
  | nil =>
    have hEach : each [] outcome = fun _ => none := funext fun i => by simp [each]
    rw [hEach, settle_none]
    rfl
  | cons k ks ih =>
    have hEach : each (k :: ks) outcome = fun i => (one k outcome i).or (each ks outcome i) := by
      funext i
      by_cases h : i = k <;> simp [each, one, h]
    rw [hEach, ← settle_settle]
    exact (ih (c.complete k outcome)).trans (by rw [complete_eq])

/-- What the end of a connection gives to its messages. -/
def parting (c : Connection γ) (termination : Termination) (k : Nat) : Option Outcome :=
  (each c.queued (.error (.connectionClosed c.id)) k).or
    (each c.pending (c.pendingOutcome termination) k)

theorem finish_eq (c : Connection γ) (termination : Termination) :
    c.finish termination = { c with
      handle := c.handle.close.2, queued := [], pending := [], writing := none
      termination := some termination, messages := settle (c.parting termination) c.messages } := by
  rw [finish, completeAll_eq, completeAll_eq, settle_settle]
  rfl

@[simp] theorem contents_complete (c : Connection γ) (k : Nat) (outcome : Outcome) :
    (c.complete k outcome).contents = c.contents := by
  rw [complete_eq]
  exact map_content_settle _ _

@[simp] theorem contents_finish (c : Connection γ) (termination : Termination) :
    (c.finish termination).contents = c.contents := by
  rw [finish_eq]
  exact map_content_settle _ _

@[simp] theorem outgoing_finish (c : Connection γ) (termination : Termination) :
    (c.finish termination).outgoing = c.outgoing := by
  rw [finish_eq]

@[simp] theorem termination_finish (c : Connection γ) (termination : Termination) :
    (c.finish termination).termination = some termination := by
  rw [finish_eq]

theorem expire_connection (c : Connection γ) (k : Nat) (metrics : Metrics) :
    ∃ handle, (c.expire k metrics).2.1 = { c with
      handle
      messages := settle (fun i => (c.messages[k]?).bind fun m =>
        one k (.error (.responseTimeout m.timeout)) i) c.messages } := by
  cases hMessage : c.messages[k]? with
  | none =>
    refine ⟨c.handle, ?_⟩
    simp [expire, hMessage]
  | some m =>
    refine ⟨(m.expire c.handle metrics).2.2.1, ?_⟩
    have hMessages : c.messages.set k (m.expire c.handle metrics).2.1 =
        settle (one k (.error (.responseTimeout m.timeout))) c.messages := by
      refine List.ext_getElem? fun i => ?_
      rw [List.getElem?_set, getElem?_settle, Message.expire_snd]
      by_cases h : k = i
      · subst h
        have hLt := (List.getElem?_eq_some_iff.mp hMessage).1
        rw [if_pos rfl, if_pos hLt, hMessage]
        simp [one]
      · simp [one, h, Ne.symm h]
    simp [expire, hMessage, hMessages]

theorem deliver_of_nil {c : Connection γ} (hDue : c.pending = []) (payload : Bytes) :
    c.deliver payload = c.finish (.failed c.unexpected) := by
  rw [deliver, hDue]

theorem deliver_of_cons {c : Connection γ} {k : Nat} {others : List Nat} (hDue : c.pending = k :: others)
    (payload : Bytes) :
    c.deliver payload =
      { c with pending := others }.complete k (.ok (some { payload, connection := c.id })) := by
  rw [deliver, hDue]

/-! When the task makes its moves, and when it waits. -/

def Move.Allowed (c : Connection γ) : Move → Prop
  | .rest => True
  | .shut => c.termination = none ∧ c.handle.isActive = false
  | .take k m =>
    c.termination = none ∧ c.handle.isActive = true ∧ c.writing = none ∧
      c.messages[k]? = some m ∧ c.queued = k :: c.queued.tail
  | .leave => c.termination = none ∧ c.handle.isActive = true ∧ c.writing = none ∧ c.queued = []
  | .decode => c.termination = none ∧ c.handle.isActive = true ∧ c.writing = none ∧ c.queued = []

theorem allowed_next (c : Connection γ) : c.next.Allowed c := by
  unfold next
  split
  case isTrue => trivial
  case isFalse hEnded =>
    have hOpen : c.termination = none := by simpa [hasEnded] using hEnded
    split
    case isTrue hClosing => exact ⟨hOpen, by simpa using hClosing⟩
    case isFalse hActive =>
      rw [Bool.not_eq_true, Bool.not_eq_false'] at hActive
      split
      case isTrue => trivial
      case isFalse hWriting =>
        have hIdle : c.writing = none := by simpa using hWriting
        split
        case h_1 k rest hQueued =>
          split
          case h_1 m hMessage =>
            exact ⟨hOpen, hActive, hIdle, hMessage, by rw [hQueued, List.tail_cons]⟩
          case h_2 => trivial
        case h_2 hQueued =>
          split
          case isTrue => exact ⟨hOpen, hActive, hIdle, hQueued⟩
          case isFalse =>
            split
            case isTrue => exact ⟨hOpen, hActive, hIdle, hQueued⟩
            case isFalse => trivial

def Awaited.Allowed (c : Connection γ) : Awaited → Prop
  | .nothing => True
  | .write => c.termination = none ∧ c.handle.isActive = true ∧ c.writing.isSome = true
  | .flush =>
    c.termination = none ∧ c.handle.isActive = true ∧ c.writing.isSome = true ∧ c.outgoing = []
  | .read => c.termination = none ∧ c.handle.isActive = true ∧ c.writing = none ∧ c.queued = []

theorem allowed_awaited (c : Connection γ) : c.awaited.Allowed c := by
  unfold awaited
  split
  case isTrue => trivial
  case isFalse hOpen =>
    obtain ⟨hEnded, hActive⟩ : c.termination = none ∧ c.handle.isActive = true := by
      simpa [hasEnded] using hOpen
    split
    case isTrue hWriting =>
      split
      case isTrue hOutgoing => exact ⟨hEnded, hActive, hWriting, by simpa using hOutgoing⟩
      case isFalse => exact ⟨hEnded, hActive, hWriting⟩
    case isFalse hWriting =>
      split
      case isTrue => trivial
      case isFalse hBusy =>
        simp only [Bool.or_eq_true, not_or, Bool.not_eq_true', Bool.not_eq_false] at hBusy
        exact ⟨hEnded, hActive, by simpa using hWriting, by simpa using hBusy.1.1⟩

theorem expectsReply_eq (c : Connection γ) (k : Nat) :
    c.expectsReply k = (c.contents[k]?).any fun content => !content.2.isZero := by
  rw [expectsReply, contents, List.getElem?_map, Option.any_map]
  rfl

theorem expectsReply_of_message {c : Connection γ} {k : Nat} {m : Message}
    (h : c.messages[k]? = some m) : c.expectsReply k = m.expectsResponse := by
  rw [expectsReply, h, Option.any_some]

theorem expectsReply_congr {c c' : Connection γ} (h : c'.contents = c.contents) :
    c'.expectsReply = c.expectsReply :=
  funext fun k => by rw [expectsReply_eq, expectsReply_eq, h]

theorem lt_of_expectsReply {c : Connection γ} {k : Nat} (h : c.expectsReply k = true) :
    k < c.messages.length := by
  obtain ⟨m, hMessage, -⟩ := (Option.any_eq_true _ _).mp h
  exact (List.getElem?_eq_some_iff.mp hMessage).1

theorem send_eq_ok {c sent : Connection γ} {m : Message} {k : Nat} (h : c.send m = .ok (k, sent)) :
    c.termination = none ∧ c.handle.isActive = true ∧ k = c.messages.length ∧ sent = { c with
      messages := c.messages ++ [{ m with connection := some c.id }]
      queued := c.queued ++ [c.messages.length] } := by
  unfold send Message.associate at h
  split at h
  case isTrue => cases h
  case isFalse hActive =>
    cases hConnection : m.connection with
    | some other =>
      rw [hConnection] at h
      cases h
    | none =>
      simp only [hConnection] at h
      split at h
      case isTrue => cases h
      case isFalse hOpen =>
        cases h
        obtain ⟨-, hEnded⟩ : c.senderDropped = false ∧ c.termination = none := by
          simpa [hasEnded] using hOpen
        exact ⟨hEnded, by simpa using hActive, rfl, rfl⟩

end Connection
end Switchyard.Client
