import Switchyard.Control.ShutdownRequest
import Switchyard.Proofs.Rest.Routing
import Switchyard.Proofs.Rest.Service
import Switchyard.Rest.Exchange

/-! # Shutting down on request

A request to shut down is refused as long as nothing has been done for it, or else all components have been
shut down in order when it is answered. The server that has taken it is left for the time after the answer.
-/
namespace Switchyard.Lifecycle
set_option autoImplicit false
variable {σ α : Type} {targets : List (Target σ)}

/-- The state has a journal, in which the shutdown of each of these components makes one entry. -/
def Enters (targets : List (Target σ)) (journal : σ → List α) (entry : Target σ → α) : Prop :=
  ∀ target ∈ targets, ∀ state, journal (target.shutdown state) = journal state ++ [entry target]

/-- None of these components has to do with this part of the state. -/
def Spares (targets : List (Target σ)) (part : σ → α) : Prop :=
  ∀ target ∈ targets, ∀ state, part (target.shutdown state) = part state

theorem shutdownAll_cons (target : Target σ) (targets : List (Target σ)) (state : σ) :
    shutdownAll (target :: targets) state = shutdownAll targets (target.shutdown state) := rfl

theorem Enters.journal_shutdownAll {journal : σ → List α} {entry : Target σ → α}
    (h : Enters targets journal entry) (state : σ) :
    journal (shutdownAll targets state) = journal state ++ targets.map entry := by
  induction targets generalizing state with
  | nil => exact (List.append_nil _).symm
  | cons target targets ih =>
    have hFirst := h target List.mem_cons_self state
    rw [shutdownAll_cons, ih fun other hOther => h other (List.mem_cons_of_mem target hOther), hFirst,
      List.append_assoc]
    rfl

theorem Spares.part_shutdownAll {part : σ → α} (h : Spares targets part) (state : σ) :
    part (shutdownAll targets state) = part state := by
  induction targets generalizing state with
  | nil => rfl
  | cons target targets ih =>
    rw [shutdownAll_cons, ih fun other hOther => h other (List.mem_cons_of_mem target hOther)]
    exact h target List.mem_cons_self state

end Switchyard.Lifecycle

namespace Switchyard.Rest
set_option autoImplicit false
variable {ι : Type → Type} [BindingIndex ι] {σ : Type} {x : Exchange ι σ} {request : Request}

@[simp] theorem Outcome.status_response (outcome : Outcome σ) : outcome.response.status = outcome.status := by
  simp only [response]
  split
  case h_1 => split <;> rfl
  case h_2 => rfl

namespace Exchange

theorem dispatch_of_refuses {cause : Error} (h : x.dispatcher.Refuses request cause) :
    x.dispatch request = (cause.answer, { x with assembler := x.assembler.finish }) := by
  rw [dispatch, h.dispatch]

theorem dispatch_of_ok {outcome : Outcome σ} {left : σ}
    (h : x.dispatcher.dispatch request x.state = (.ok outcome, left)) :
    x.dispatch request = (outcome.response, { x with
      assembler := x.assembler.finish, state := left,
      afterwards := x.afterwards ++ outcome.afterwards.toList }) := by
  rw [dispatch, h]

end Exchange
end Switchyard.Rest

namespace Switchyard.Control.ShutdownRequest
open Lifecycle Rest
set_option autoImplicit false
variable {ι : Type → Type} {σ : Type} {d : Dispatcher ι σ} {h : Handler σ} {request : Request}
  {reason : String} {targets : List (Target σ)} {cause : Error}

/-- What stands in the way of a request to shut down. Of several causes the first one counts. -/
inductive Hinders (d : Dispatcher ι σ) (h : Handler σ) (request : Request) : Error → Prop
  | closed (hClosed : d.active = false) : Hinders d h request d.inactive
  | inactive (hOpen : d.active = true) (hInactive : h.active = false) : Hinders d h request h.inactive
  | arguments (hOpen : d.active = true) (hActive : h.active = true)
    (hArguments : h.arguments request ≠ []) : Hinders d h request (argumentsRefused h.binding)
  | unassociated (hOpen : d.active = true) (hActive : h.active = true)
    (hArguments : h.arguments request = []) (hAlone : h.server? = none) :
    Hinders d h request (unassociated h.binding)

/-- Nothing stands in the way, and the server is known that takes requests for this handler. -/
structure IsClear (d : Dispatcher ι σ) (h : Handler σ) (request : Request) (control : ServerHandle σ) :
    Prop where
  isOpen : d.active = true
  active : h.active = true
  arguments : h.arguments request = []
  server : h.server? = some control

theorem hinders_or_isClear (d : Dispatcher ι σ) (h : Handler σ) (request : Request) :
    (∃ cause, Hinders d h request cause) ∨ ∃ control, IsClear d h request control := by
  cases hOpen : d.active with
  | false => exact .inl ⟨_, .closed hOpen⟩
  | true =>
    cases hActive : h.active with
    | false => exact .inl ⟨_, .inactive hOpen hActive⟩
    | true =>
      by_cases hArguments : h.arguments request = []
      · cases hServer : h.server? with
        | none => exact .inl ⟨_, .unassociated hOpen hActive hArguments hServer⟩
        | some control => exact .inr ⟨control, hOpen, hActive, hArguments, hServer⟩
      · exact .inl ⟨_, .arguments hOpen hActive hArguments⟩

theorem IsClear.not_hinders {control : ServerHandle σ} (hClear : IsClear d h request control) :
    ¬Hinders d h request cause := by
  rintro (hClosed | ⟨-, hInactive⟩ | ⟨-, -, hArguments⟩ | ⟨-, -, -, hAlone⟩)
  · exact Bool.false_ne_true (hClosed.symm.trans hClear.isOpen)
  · exact Bool.false_ne_true (hInactive.symm.trans hClear.active)
  · exact hArguments hClear.arguments
  · cases hAlone.symm.trans hClear.server

variable [BindingIndex ι]

/-- A handler that is asked does its work when the answer is waited for. -/
theorem receive_eq (hOpen : d.active = true) (hFound : d.find? request = some h) (hActive : h.active = true)
    (hLogic : h.logic = logic reason targets) (state : σ) :
    d.receive request state = (h.reply (answer reason targets (h.context request)), state) := by
  simp [Dispatcher.receive, hOpen, hFound, Handler.receive, hActive, hLogic, logic, Logic.ofFunction]

theorem Hinders.refuses (hHinders : Hinders d h request cause) (hFound : d.find? request = some h)
    (hLogic : h.logic = logic reason targets) : d.Refuses request cause := by
  cases hHinders with
  | closed hClosed => exact Dispatcher.refuses_of_inactive hClosed request
  | inactive hOpen hInactive => exact Dispatcher.refuses_of_find? hOpen hFound hInactive
  | arguments hOpen hActive hArguments =>
    refine Dispatcher.refuses_of_receive fun state => ?_
    have hAnswer : answer reason targets (h.context request) =
        fun state => (.failure (argumentsRefused h.binding), state) := by
      funext state
      simp [answer, Handler.context, hArguments]
    rw [receive_eq hOpen hFound hActive hLogic, hAnswer]
    rfl
  | unassociated hOpen hActive hArguments hAlone =>
    refine Dispatcher.refuses_of_receive fun state => ?_
    have hAnswer : answer reason targets (h.context request) =
        fun state => (.failure (Rest.unassociated h.binding), state) := by
      funext state
      simp [answer, Handler.context, Context.server, hArguments, hAlone]
    rw [receive_eq hOpen hFound hActive hLogic, hAnswer]
    rfl

namespace IsClear
variable {control : ServerHandle σ}

theorem receive_eq (hClear : IsClear d h request control) (hFound : d.find? request = some h)
    (hLogic : h.logic = logic reason targets) (state : σ) : d.receive request state =
      (fun later => (.ok (accepted reason targets control), shutdownAll targets later), state) := by
  have hAnswer : answer reason targets (h.context request) =
      fun later => (.result (accepted reason targets control), shutdownAll targets later) := by
    funext later
    simp [answer, Handler.context, Context.server, hClear.arguments, hClear.server]
  rw [ShutdownRequest.receive_eq hClear.isOpen hFound hClear.active hLogic, hAnswer]
  rfl

theorem dispatch_eq (hClear : IsClear d h request control) (hFound : d.find? request = some h)
    (hLogic : h.logic = logic reason targets) (state : σ) :
    d.dispatch request state = (.ok (accepted reason targets control), shutdownAll targets state) := by
  rw [Dispatcher.dispatch_eq, hClear.receive_eq hFound hLogic]

end IsClear

theorem hinders_iff (hFound : d.find? request = some h) (hLogic : h.logic = logic reason targets)
    (state : σ) : (d.dispatch request state).1 = .error cause ↔ Hinders d h request cause := by
  constructor
  · intro hError
    rcases hinders_or_isClear d h request with ⟨first, hFirst⟩ | ⟨control, hClear⟩
    · rw [(hFirst.refuses hFound hLogic).dispatch] at hError
      cases hError
      exact hFirst
    · rw [hClear.dispatch_eq hFound hLogic] at hError
      cases hError
  · intro hHinders
    rw [(hHinders.refuses hFound hLogic).dispatch]

theorem body_accepted (reason : String) (targets : List (Target σ)) (control : ServerHandle σ) :
    (accepted reason targets control).body = some [(reasonField, .string reason),
      ("stopped", .array (targets.map fun target => .string target.description))] := by
  have hOrder : ¬"stopped" < reasonField ∧ "stopped" ≠ reasonField := by decide
  simp [accepted, Outcome.ofReason, Outcome.ofStatus, Outcome.field, Outcome.inLanguage, Outcome.andThen,
    Json.Object.insert, hOrder]

/-- A request to shut down does nothing, or shuts down all components in order and leaves the server to
be stopped afterwards. -/
theorem shuts_down_all_or_nothing (x : Exchange ι σ) (hFound : x.dispatcher.find? request = some h)
    (hLogic : h.logic = logic reason targets) :
    let d := x.dispatcher
    let result := x.dispatch request
    (∀ cause, (d.dispatch request x.state).1 = .error cause ↔ Hinders d h request cause) ∧
    (∀ cause, Hinders d h request cause → d.Refuses request cause ∧ result.1 = cause.answer ∧
      result.2.state = x.state ∧ result.2.afterwards = x.afterwards) ∧
    ((∀ cause, ¬Hinders d h request cause) → ∃ control, h.server? = some control ∧
      let outcome := accepted reason targets control
      outcome.status = 202 ∧ outcome.afterwards = some control.stop ∧
      outcome.body = some [(reasonField, .string reason),
        ("stopped", .array (targets.map fun target => .string target.description))] ∧
      (∀ state later, (d.receive request state).2 = state ∧
        (d.receive request state).1 later = (.ok outcome, shutdownAll targets later)) ∧
      result.1 = outcome.response ∧ result.1.status = 202 ∧
      result.2.state = shutdownAll targets x.state ∧
      result.2.afterwards = x.afterwards ++ [control.stop] ∧
      (∀ (α : Type) (journal : σ → List α) entry, Enters targets journal entry →
        journal result.2.state = journal x.state ++ targets.map entry) ∧
      ∀ (α : Type) (part : σ → α), Spares targets part → part result.2.state = part x.state) := by
  intro d result
  refine ⟨fun cause => hinders_iff hFound hLogic x.state, fun cause hHinders => ?_, fun hNone => ?_⟩
  · have hRefuses : d.Refuses request cause := hHinders.refuses hFound hLogic
    have hResult : result = _ := Exchange.dispatch_of_refuses hRefuses
    rw [hResult]
    exact ⟨hRefuses, rfl, rfl, rfl⟩
  · obtain ⟨control, hClear⟩ : ∃ control, IsClear d h request control :=
      (hinders_or_isClear d h request).resolve_left fun ⟨cause, hHinders⟩ => hNone cause hHinders
    have hResult : result = _ := Exchange.dispatch_of_ok (hClear.dispatch_eq hFound hLogic x.state)
    refine ⟨control, hClear.server, rfl, rfl, body_accepted reason targets control, fun state later => ?_, ?_⟩
    · rw [hClear.receive_eq hFound hLogic]
      exact ⟨rfl, rfl⟩
    · rw [hResult]
      exact ⟨rfl, Outcome.status_response _, rfl, rfl, fun _ _ _ hEnters => hEnters.journal_shutdownAll _,
        fun _ _ hSpares => hSpares.part_shutdownAll _⟩

namespace Sample

/-- The state is a journal of the components that have been shut down. -/
def component (name : String) : Target (List String) where
  description := name
  shutdown state := state ++ [name]

def components : List (Target (List String)) := [component "proxy", component "echo", component "proxy"]

def control : ServerHandle (List String) where
  name := "control"
  stop state := state ++ ["control"]

theorem exists_dispatcher : ∃ d : Dispatcher Bindings (List String), d.active = true ∧
    d.find? binding = some ((handler "Stopping" components).joined control) := by
  obtain ⟨d, hNew⟩ : ∃ d : Dispatcher Bindings (List String),
      Dispatcher.new control [handler "Stopping" components] = .ok d := ⟨_, rfl⟩
  have hLongest : IsLongestPrefix [binding] binding binding := ⟨by decide, by decide, by decide⟩
  obtain ⟨-, hFound⟩ := Dispatcher.find?_of_isLongestPrefix hNew (List.mem_singleton.mpr rfl) hLongest
  exact ⟨d, (Dispatcher.new_eq_ok hNew).2.1, hFound⟩

end Sample

/-- One component is listed twice, and is asked twice. -/
theorem shuts_down_all_or_nothing_listedTwice : ∃ x : Exchange Bindings (List String), x.state = [] ∧
    x.dispatcher.find? binding = some ((handler "Stopping" Sample.components).joined Sample.control) ∧
    (x.dispatch binding).1.status = 202 ∧
    (x.dispatch binding).2.state = ["proxy", "echo", "proxy"] ∧
    (x.dispatch binding).2.afterwards = [Sample.control.stop] := by
  obtain ⟨d, hOpen, hFound⟩ := Sample.exists_dispatcher
  let x : Exchange Bindings (List String) :=
    { assembler := .empty, dispatcher := d, state := [], afterwards := [], metrics := [] }
  obtain ⟨-, -, hClear⟩ := shuts_down_all_or_nothing x hFound rfl
  have hReady : IsClear d ((handler "Stopping" Sample.components).joined Sample.control) binding
      Sample.control := ⟨hOpen, rfl, rfl, rfl⟩
  obtain ⟨_, hControl, -, -, -, -, -, hStatus, -, hAfterwards, hJournal, -⟩ :=
    hClear fun _ => hReady.not_hinders
  cases hControl
  have hEnters : Enters Sample.components id Target.description := by
    intro target hTarget state
    obtain rfl | rfl | rfl : target = _ ∨ target = _ ∨ target = _ := by
      simpa [Sample.components] using hTarget
    all_goals rfl
  exact ⟨x, rfl, hFound, hStatus, hJournal _ id Target.description hEnters, hAfterwards⟩

end Switchyard.Control.ShutdownRequest
