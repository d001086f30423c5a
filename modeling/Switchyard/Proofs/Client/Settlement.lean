import Switchyard.Proofs.Client.Activity

/-! # Messages that share a connection

Anyone who holds a message can complete it, its timer can expire it, and anyone who holds the connection
or a reply from it can close it. Of all that is done to a message the first counts, and of all that closes
the connection the first is told so. A message that expires first takes the connection with it.
-/
namespace Switchyard.Client
open Net
set_option autoImplicit false

namespace Handle

theorem IsLater.trans {h h' h'' : Handle} (hFirst : IsLater h h') (hSecond : IsLater h' h'') :
    IsLater h h'' :=
  ⟨hSecond.id.trans hFirst.id, hSecond.closing ∘ hFirst.closing, hSecond.sound ∘ hFirst.sound⟩

/-- A close is told that it is the first exactly if the flag was not yet set. -/
theorem toNat_closed_close (h : Handle) :
    h.close.2.closed.toNat = h.closed.toNat + if some h.close.1 = some true then 1 else 0 := by
  unfold close
  cases hClosed : h.closed <;> simp [hClosed]

end Handle

structure Shared where
  handle : Handle
  messages : List Message
  metrics : Metrics

inductive SharedEvent where
  | complete (k : Nat) (outcome : Outcome)
  | expire (k : Nat)
  | close
  | abort (reply : Response)
  | cancelParent

namespace SharedEvent

/-- What the message at a place is offered. -/
def offer (i : Nat) (timeout : Duration) : SharedEvent → Option Outcome
  | complete k outcome => if k = i then some outcome else none
  | expire k => if k = i then some (.error (.responseTimeout timeout)) else none
  | close | abort _ | cancelParent => none

def isExpire : SharedEvent → Bool
  | expire _ => true
  | complete .. | close | abort _ | cancelParent => false

end SharedEvent

/-- Whether a message has been completed by an operation, and what the close that was part of it said. -/
structure Report where
  first : Bool
  closed : Option Bool
deriving DecidableEq, Repr

def Report.nothing : Report := { first := false, closed := none }

namespace Shared

def close (s : Shared) : Report × Shared :=
  ({ first := false, closed := some s.handle.close.1 }, { s with handle := s.handle.close.2 })

/-- A reply closes the connection that it came from. -/
def step (s : Shared) : SharedEvent → Report × Shared
  | .complete k outcome =>
    match s.messages[k]? with
    | none => (.nothing, s)
    | some m =>
      let (first, m) := m.complete outcome
      ({ first, closed := none }, { s with messages := s.messages.set k m })
  | .expire k =>
    match s.messages[k]? with
    | none => (.nothing, s)
    | some m =>
      let (first, late, handle, metrics) := m.expire s.handle s.metrics
      ({ first, closed := if first && m.connection.isSome then some s.handle.close.1 else none },
        { handle, messages := s.messages.set k late, metrics })
  | .close => s.close
  | .abort reply => if reply.connection = s.handle.id then s.close else (.nothing, s)
  | .cancelParent => (.nothing, { s with handle := s.handle.parentCancelled })

def run (s : Shared) (events : List SharedEvent) : Shared :=
  events.foldl (fun s event => (s.step event).2) s

def reports (s : Shared) : List SharedEvent → List (SharedEvent × Report)
  | [] => []
  | event :: events => (event, (s.step event).1) :: (s.step event).2.reports events

variable {s : Shared} {k : Nat} {m : Message}

theorem set_self {messages : List Message} (hMessage : messages[k]? = some m) : messages.set k m = messages := by
  obtain ⟨hk, rfl⟩ := List.getElem?_eq_some_iff.mp hMessage
  exact List.set_getElem_self hk

theorem step_complete_of_not_open (h : ¬∃ m, s.messages[k]? = some m ∧ m.outcome = none)
    (outcome : Outcome) : s.step (.complete k outcome) = (.nothing, s) := by
  cases hMessage : s.messages[k]? with
  | none => simp [step, hMessage]
  | some m =>
    cases hOutcome : m.outcome with
    | none => exact absurd ⟨m, hMessage, hOutcome⟩ h
    | some given => simp [step, hMessage, Message.complete, hOutcome, set_self hMessage, Report.nothing]

theorem step_complete_of_open (hMessage : s.messages[k]? = some m) (hOpen : m.outcome = none)
    (outcome : Outcome) : s.step (.complete k outcome) =
      ({ first := true, closed := none },
        { s with messages := s.messages.set k { m with outcome := some outcome } }) := by
  simp [step, hMessage, Message.complete, hOpen]

theorem step_expire_of_not_open (h : ¬∃ m, s.messages[k]? = some m ∧ m.outcome = none) :
    s.step (.expire k) = (.nothing, s) := by
  cases hMessage : s.messages[k]? with
  | none => simp [step, hMessage]
  | some m =>
    cases hOutcome : m.outcome with
    | none => exact absurd ⟨m, hMessage, hOutcome⟩ h
    | some given =>
      simp [step, hMessage, Message.expire, Message.complete, hOutcome, set_self hMessage, Report.nothing]

theorem step_expire_of_open (hMessage : s.messages[k]? = some m) (hOpen : m.outcome = none)
    (hAssociated : m.connection ≠ none) : s.step (.expire k) =
      ({ first := true, closed := some s.handle.close.1 },
        { handle := s.handle.close.2, metrics := s.metrics.count .responseTimeouts
          messages := s.messages.set k { m with outcome := some (.error (.responseTimeout m.timeout)) } }) := by
  obtain ⟨id, hConnection⟩ := Option.ne_none_iff_exists'.mp hAssociated
  simp [step, hMessage, Message.expire, Message.complete, hOpen, hConnection]

section Connection
variable {γ : Type}

def ofConnection (x : Connection γ × Metrics) : Shared :=
  { handle := x.1.handle, messages := x.1.messages, metrics := x.2 }

def operate (x : Connection γ × Metrics) : SharedEvent → Connection γ × Metrics
  | .complete k outcome => (x.1.complete k outcome, x.2)
  | .expire k => (x.1.expire k x.2).2
  | .close => (x.1.close.2, x.2)
  | .abort reply => if reply.connection = x.1.id then (x.1.close.2, x.2) else x
  | .cancelParent => (x.1.cancelParent, x.2)

theorem step_ofConnection (x : Connection γ × Metrics) (event : SharedEvent) :
    ((ofConnection x).step event).2 = ofConnection (operate x event) := by
  obtain ⟨c, metrics⟩ := x
  cases event with
  | complete k outcome =>
    unfold step operate Connection.complete ofConnection
    cases hMessage : c.messages[k]? <;> simp [hMessage, List.modify_eq_set_getElem?]
  | expire k =>
    unfold step operate Connection.expire ofConnection
    cases hMessage : c.messages[k]? <;> simp [hMessage]
  | abort reply =>
    have hId : (ofConnection (c, metrics)).handle.id = c.id := rfl
    simp only [step, operate, hId]
    split <;> rfl
  | close | cancelParent => rfl

/-- Nothing else of a connection has a part in these operations. -/
theorem run_ofConnection (x : Connection γ × Metrics) (events : List SharedEvent) :
    (ofConnection x).run events = ofConnection (events.foldl operate x) := by
  induction events generalizing x with
  | nil => rfl
  | cons event events ih =>
    change (((ofConnection x).step event).2).run events = _
    rw [step_ofConnection, ih, List.foldl_cons]

end Connection

def IsAssociated (s : Shared) : Prop := ∀ m ∈ s.messages, m.connection = some s.handle.id

theorem IsAssociated.connection_ne_none (h : s.IsAssociated) (hMessage : s.messages[k]? = some m) :
    m.connection ≠ none := by
  rw [h m (List.mem_of_getElem? hMessage)]
  exact Option.some_ne_none _

/-- What one operation does, to messages that belong to the connection. -/
structure Follows (s : Shared) (event : SharedEvent) (report : Report) (s' : Shared) : Prop where
  later : s.handle.IsLater s'.handle
  closed : s'.handle.closed.toNat = s.handle.closed.toNat + if report.closed = some true then 1 else 0
  counted : s'.metrics.get .responseTimeouts =
    s.metrics.get .responseTimeouts + if event.isExpire && report.first then 1 else 0
  messages : ∀ k : Nat, s'.messages[k]? =
    (s.messages[k]?).map fun m => { m with outcome := m.outcome.or (event.offer k m.timeout) }

/-- An operation that comes too late for its message, or is about none, changes nothing. -/
theorem follows_nothing {event : SharedEvent} (hOffer : ∀ k m, s.messages[k]? = some m →
    m.outcome = none → event.offer k m.timeout = none) : Follows s event .nothing s where
  later := .refl _
  closed := rfl
  counted := by simp [Report.nothing]
  messages k := by
    cases hMessage : s.messages[k]? with
    | none => rfl
    | some m =>
      have hKept : m.outcome.or (event.offer k m.timeout) = m.outcome := by
        cases hOutcome : m.outcome with
        | none => exact hOffer k m hMessage hOutcome
        | some outcome => rfl
      rw [Option.map_some, hKept]

theorem follows_nothing_of_not_open {event : SharedEvent}
    (hOthers : ∀ i timeout, k ≠ i → event.offer i timeout = none)
    (h : ¬∃ m, s.messages[k]? = some m ∧ m.outcome = none) : Follows s event .nothing s := by
  refine follows_nothing fun i m hMessage hOpen => hOthers i m.timeout ?_
  rintro rfl
  exact h ⟨m, hMessage, hOpen⟩

/-- A message takes the first outcome that it is offered, and the others go without. -/
theorem getElem?_set_offer {event : SharedEvent} {outcome : Outcome}
    (hOthers : ∀ i timeout, k ≠ i → event.offer i timeout = none) (hMessage : s.messages[k]? = some m)
    (hOpen : m.outcome = none) (hOffer : event.offer k m.timeout = some outcome) (i : Nat) :
    (s.messages.set k { m with outcome := some outcome })[i]? =
      (s.messages[i]?).map fun m => { m with outcome := m.outcome.or (event.offer i m.timeout) } := by
  obtain ⟨hk, -⟩ := List.getElem?_eq_some_iff.mp hMessage
  by_cases hSame : k = i
  · subst hSame
    rw [List.getElem?_set_self hk, hMessage, Option.map_some, hOpen, Option.none_or, hOffer]
  · rw [List.getElem?_set_ne hSame]
    simp [hOthers i _ hSame]

theorem follows_close {event : SharedEvent} (hOffer : ∀ k timeout, event.offer k timeout = none)
    (hExpire : event.isExpire = false) : Follows s event s.close.1 s.close.2 where
  later := s.handle.isLater_close
  closed := s.handle.toNat_closed_close
  counted := by simp [close, hExpire]
  messages k := by simp [close, hOffer]

theorem IsAssociated.follows_step (h : s.IsAssociated) (event : SharedEvent) :
    Follows s event (s.step event).1 (s.step event).2 := by
  cases event with
  | complete k outcome =>
    have hOthers (i : Nat) (timeout : Duration) (hOther : k ≠ i) :
        (SharedEvent.complete k outcome).offer i timeout = none := if_neg hOther
    by_cases hOpen : ∃ m, s.messages[k]? = some m ∧ m.outcome = none
    · obtain ⟨m, hMessage, hOpen⟩ := hOpen
      rw [step_complete_of_open hMessage hOpen]
      exact ⟨.refl _, rfl, (Int.add_zero _).symm,
        getElem?_set_offer hOthers hMessage hOpen (if_pos rfl)⟩
    · rw [step_complete_of_not_open hOpen]
      exact follows_nothing_of_not_open hOthers hOpen
  | expire k =>
    have hOthers (i : Nat) (timeout : Duration) (hOther : k ≠ i) :
        (SharedEvent.expire k).offer i timeout = none := if_neg hOther
    by_cases hOpen : ∃ m, s.messages[k]? = some m ∧ m.outcome = none
    · obtain ⟨m, hMessage, hOpen⟩ := hOpen
      rw [step_expire_of_open hMessage hOpen (h.connection_ne_none hMessage)]
      exact ⟨s.handle.isLater_close, s.handle.toNat_closed_close,
        Metrics.get_add_self .., getElem?_set_offer hOthers hMessage hOpen (if_pos rfl)⟩
    · rw [step_expire_of_not_open hOpen]
      exact follows_nothing_of_not_open hOthers hOpen
  | close => exact follows_close (fun _ _ => rfl) rfl
  | abort reply =>
    unfold step
    dsimp only
    split
    · exact follows_close (fun _ _ => rfl) rfl
    · exact follows_nothing fun _ _ _ _ => rfl
  | cancelParent =>
    refine ⟨s.handle.isLater_parentCancelled, rfl, (Int.add_zero _).symm, fun k => ?_⟩
    simp [step, SharedEvent.offer]

/-- What a whole run does. -/
structure Comes (s : Shared) (events : List SharedEvent) : Prop where
  associated : (s.run events).IsAssociated
  later : s.handle.IsLater (s.run events).handle
  closed : (s.run events).handle.closed.toNat =
    s.handle.closed.toNat + ((s.reports events).map (·.2.closed)).count (some true)
  counted : (s.run events).metrics.get .responseTimeouts =
    s.metrics.get .responseTimeouts +
      ((s.reports events).filter fun entry => entry.1.isExpire && entry.2.first).length
  messages : ∀ k : Nat, (s.run events).messages[k]? = (s.messages[k]?).map fun m =>
    { m with outcome := m.outcome.or (events.findSome? (·.offer k m.timeout)) }

theorem IsAssociated.step (h : s.IsAssociated) (event : SharedEvent) : (s.step event).2.IsAssociated := by
  obtain ⟨hLater, -, -, hMessages⟩ := h.follows_step event
  intro m' hMem
  obtain ⟨k, hMessage'⟩ := List.mem_iff_getElem?.mp hMem
  rw [hMessages] at hMessage'
  obtain ⟨m, hMessage, rfl⟩ := Option.map_eq_some_iff.mp hMessage'
  rw [hLater.id]
  exact h m (List.mem_of_getElem? hMessage)

theorem IsAssociated.comes (h : s.IsAssociated) (events : List SharedEvent) : s.Comes events := by
  induction events generalizing s with
  | nil => exact ⟨h, .refl _, rfl, by simp [run, reports], fun k => by simp [run]⟩
  | cons event events ih =>
    obtain ⟨hLater, hClosed, hCounted, hMessages⟩ := h.follows_step event
    obtain ⟨hAssociated, hLater', hClosed', hCounted', hMessages'⟩ := ih (h.step event)
    refine ⟨hAssociated, hLater.trans hLater', ?_, ?_, fun k => ?_⟩
    · change ((s.step event).2.run events).handle.closed.toNat = _
      rw [hClosed', hClosed, reports, List.map_cons, List.count_cons]
      simp only [beq_iff_eq]
      omega
    · change ((s.step event).2.run events).metrics.get .responseTimeouts = _
      rw [hCounted', hCounted, reports, List.filter_cons]
      split
      · rw [List.length_cons]
        omega
      · omega
    · change ((s.step event).2.run events).messages[k]? = _
      rw [hMessages', hMessages, Option.map_map]
      congr 1
      funext m
      cases hOffer : event.offer k m.timeout <;> simp [hOffer]

/-- Messages that belong to one connection, whatever is done to them and to the connection in whatever
order. A message has the first outcome that it is offered, by a completion or by its timer, and whoever
comes later is told so and changes nothing. A message that expires first closes the connection, and its
completion by others leaves the connection alone. At most one close is told that it is the first, the
timeouts counted are the expirations that came first, and a connection that is closing stays so. -/
theorem first_outcome_counts_and_closes_once (id : ConnectionId) (cancelled : Bool)
    (messages : List Message) (metrics : Metrics) (hAssociated : ∀ m ∈ messages, m.connection = some id)
    (events : List SharedEvent) :
    let before : Shared := { handle := .new id cancelled, messages, metrics }
    let s := before.run events
    (∀ (k : Nat) (m : Message), messages[k]? = some m → s.messages[k]? =
      some { m with outcome := m.outcome.or (events.findSome? (·.offer k m.timeout)) }) ∧
    (∀ (k : Nat) (m : Message), s.messages[k]? = some m → m.outcome ≠ none →
      (∀ outcome, s.step (.complete k outcome) = (.nothing, s)) ∧ s.step (.expire k) = (.nothing, s)) ∧
    (∀ (k : Nat) (m : Message), s.messages[k]? = some m → m.outcome = none →
      (∀ outcome, (s.step (.complete k outcome)).1.first = true ∧
        (s.step (.complete k outcome)).2.handle = s.handle) ∧
      (s.step (.expire k)).1.first = true ∧ (s.step (.expire k)).2.handle.closed = true ∧
      (s.step (.expire k)).2.handle.isActive = false) ∧
    ((before.reports events).map (·.2.closed)).count (some true) ≤ 1 ∧
    s.metrics.get .responseTimeouts = metrics.get .responseTimeouts +
      ((before.reports events).filter fun entry => entry.1.isExpire && entry.2.first).length ∧
    (s.handle.isActive = false → ∀ more, (s.run more).handle.isActive = false) := by
  intro before s
  have hBefore : before.IsAssociated := hAssociated
  have hComes : before.Comes events := hBefore.comes events
  have hAfter : s.IsAssociated := hComes.associated
  have hLater : before.handle.IsLater s.handle := hComes.later
  have hSound : s.handle.closed = true → s.handle.closing = true := hLater.sound nofun
  have hNotOpen {k : Nat} {m : Message} (hMessage : s.messages[k]? = some m) (hCompleted : m.outcome ≠ none) :
      ¬∃ m, s.messages[k]? = some m ∧ m.outcome = none := by
    rintro ⟨other, hOther, hOpen⟩
    cases hMessage.symm.trans hOther
    exact hCompleted hOpen
  refine ⟨fun k m hMessage => ?_, fun k m hMessage hCompleted => ?_, fun k m hMessage hOpen => ?_, ?_,
    hComes.counted, fun hInactive more => ?_⟩
  · rw [hComes.messages, hMessage, Option.map_some]
  · exact ⟨step_complete_of_not_open (hNotOpen hMessage hCompleted),
      step_expire_of_not_open (hNotOpen hMessage hCompleted)⟩
  · rw [step_expire_of_open hMessage hOpen (hAfter.connection_ne_none hMessage)]
    refine ⟨fun outcome => ?_, rfl, s.handle.closed_close, Handle.isActive_close hSound⟩
    rw [step_complete_of_open hMessage hOpen]
    exact ⟨rfl, rfl⟩
  · have hClosed : s.handle.closed.toNat = 0 + _ := hComes.closed
    have hOnce := s.handle.closed.toNat_le
    omega
  · exact (hAfter.comes more).later.isActive_eq_false hInactive

def twoMessages : List Message :=
  [{ Message.new [1] (.ofSecs 1) with connection := some ⟨1⟩ },
    { Message.new [2] (.ofSecs 2) with connection := some ⟨1⟩ }]

/-- The client goes down, the first message is answered before its timer comes, the timer of the second
one comes first, and others want to close the connection too. -/
def lateAnswers : List SharedEvent :=
  [.cancelParent, .complete 0 (.ok none), .expire 0, .expire 1, .close,
    .abort { payload := [1], connection := ⟨1⟩ }, .complete 1 (.ok none)]

theorem first_outcome_counts_and_closes_once_late :
    let before : Shared := { handle := .new ⟨1⟩ false, messages := twoMessages, metrics := [] }
    let s := before.run lateAnswers
    (s.messages[0]?).bind (·.outcome) = some (.ok none) ∧
      (s.messages[1]?).bind (·.outcome) = some (.error (.responseTimeout (.ofSecs 2))) ∧
      ((before.reports lateAnswers).map (·.2.closed)).count (some true) ≤ 1 ∧
      s.metrics.get .responseTimeouts = 1 ∧ ∀ more, (s.run more).handle.isActive = false := by
  intro before s
  obtain ⟨hOutcomes, -, -, hOnce, hCounted, hStays⟩ :=
    first_outcome_counts_and_closes_once ⟨1⟩ false twoMessages [] (by decide) lateAnswers
  refine ⟨?_, ?_, hOnce, hCounted, hStays rfl⟩
  · rw [hOutcomes 0 _ rfl]
    rfl
  · rw [hOutcomes 1 _ rfl]
    rfl

end Shared
end Switchyard.Client
