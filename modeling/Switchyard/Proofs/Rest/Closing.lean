import Switchyard.Proofs.Rest.Independence
import Switchyard.Proofs.Rest.Routing

/-! # Which answer closes a connection

An answer is marked as the last on its connection exactly if the request was refused, before any handler
had it, for a fatal failure. A fatal failure that a handler makes its own is answered like any other.
-/
namespace Switchyard.Rest
set_option autoImplicit false

namespace Response

@[simp] theorem isClosing_json (status : Nat) (body : String) : (json status body).isClosing = false := rfl

@[simp] theorem isClosing_closing (r : Response) : r.closing.isClosing = true := by
  simp [closing, withHeader, isClosing]

theorem isClosing_withHeader {name : String} (hName : name ≠ "connection") (r : Response)
    (value : String) : (r.withHeader name value).isClosing = r.isClosing := by
  rw [Bool.eq_iff_iff, isClosing, isClosing, List.contains_iff_mem, List.contains_iff_mem]
  simp [withHeader, hName.symm]

end Response

@[simp] theorem Error.isClosing_answer (e : Error) : e.answer.isClosing = false := rfl

@[simp] theorem Error.isClosing_failureAnswer (e : Error) : e.failureAnswer.isClosing = e.isFatal := by
  unfold failureAnswer
  split
  case isTrue hFatal => simp [hFatal]
  case isFalse hMild => simp [hMild]

@[simp] theorem Outcome.isClosing_response {σ : Type} (o : Outcome σ) : o.response.isClosing = false := by
  unfold response
  extract_lets body response
  cases o.language with
  | none => rfl
  | some language =>
    by_cases hText : isHeaderText language = true
    · simp only [hText, if_true]
      exact Response.isClosing_withHeader (by decide) response language
    · simp only [hText]
      rfl

/-- A fatal failure comes out of a handler only if its own work has ended in it. -/
theorem Handler.exists_failure_of_fatal {σ : Type} {h : Handler σ} {request : Request} {state : σ}
    {cause : Error} (hFailed : (h.handle request state).1 = .error cause)
    (hFatal : cause.isFatal = true) : h.active = true ∧
      ∃ finish later, h.logic.receive request (h.context request) state = (.work finish, later) ∧
        (finish later).1 = .failure cause := by
  unfold handle at hFailed
  split at hFailed
  case isTrue =>
    cases hFailed
    cases hFatal
  case isFalse hActive =>
    refine ⟨by simpa using hActive, ?_⟩
    split at hFailed
    case h_1 =>
      cases hFailed
      cases hFatal
    case h_2 finish later hReceived =>
      refine ⟨finish, later, hReceived, ?_⟩
      dsimp only at hFailed
      cases hEnding : (finish later).1 with
      | result outcome =>
        rw [hEnding] at hFailed
        cases hFailed
      | failure own =>
        rw [hEnding] at hFailed
        cases hFailed
        rfl
      | crash crash =>
        rw [hEnding] at hFailed
        cases hFailed
        cases hFatal

theorem Dispatcher.exists_failure_of_fatal {ι : Type → Type} [BindingIndex ι] {σ : Type}
    {d : Dispatcher ι σ} {request : Request} {state : σ} {cause : Error}
    (hFailed : (d.dispatch request state).1 = .error cause) (hFatal : cause.isFatal = true) :
    ∃ h, d.find? request = some h ∧ h.active = true ∧
      ∃ finish later, h.logic.receive request (h.context request) state = (.work finish, later) ∧
        (finish later).1 = .failure cause := by
  unfold dispatch at hFailed
  split at hFailed
  case isTrue =>
    cases hFailed
    cases hFatal
  case isFalse =>
    cases hFound : d.find? request with
    | none =>
      rw [hFound] at hFailed
      cases hFailed
      cases hFatal
    | some h =>
      rw [hFound] at hFailed
      exact ⟨h, rfl, Handler.exists_failure_of_fatal hFailed hFatal⟩

namespace Exchange
variable {ι : Type → Type} {σ : Type} {x : Exchange ι σ} {http : HttpRequest} {cause : Error}

theorem exists_feedBody_eq (x : Exchange ι σ) (action : AssemblyAction) (frames : List Frame) :
    ∃ assembler, (x.feedBody action frames).2 = { x with assembler } := by
  induction frames generalizing x action with
  | nil => cases action <;> exact ⟨_, rfl⟩
  | cons frame frames ih =>
    cases action with
    | pending =>
      cases frame with
      | data data => exact ih (x.feed (.chunk data)).2 (x.feed (.chunk data)).1
      | trailers => exact ih x .pending
      | failure cause => exact ih (x.feed (.decodeFailure cause)).2 (x.feed (.decodeFailure cause)).1
    | «continue» | reject cause | emit assembled | fatal cause => exact ⟨_, rfl⟩

theorem exists_feedHead_eq (x : Exchange ι σ) (head : Head) :
    ∃ assembler, (x.feedHead head).2 = { x with assembler } := by
  unfold feedHead
  split
  case h_1 y hFed =>
    have hy : y = (x.feed (.head head)).2 := by rw [hFed]
    subst hy
    exact ⟨_, rfl⟩
  case h_2 => exact ⟨_, rfl⟩

/-- Assembling a request changes the assembler alone. -/
theorem exists_assemble_eq (x : Exchange ι σ) (http : HttpRequest) :
    ∃ assembler, (x.assemble http).2 = { x with assembler } := by
  obtain ⟨afterHead, hHead⟩ := x.exists_feedHead_eq http.head
  obtain ⟨afterBody, hBody⟩ :=
    (x.feedHead http.head).2.exists_feedBody_eq (x.feedHead http.head).1 http.frames
  refine ⟨afterBody, hBody.trans ?_⟩
  rw [hHead]

/-- The request is answered with this failure before it is dispatched. -/
inductive Refuses (x : Exchange ι σ) (http : HttpRequest) : Error → Prop
  | rejected {cause : Error} (h : (x.assemble http).1 = .reject cause) : Refuses x http cause
  | broken {cause : Error} (h : (x.assemble http).1 = .fatal cause) : Refuses x http cause
  | unfinished (h : (x.assemble http).1 = .pending ∨ (x.assemble http).1 = .continue) :
      Refuses x http unfinished

theorem refuses_or_emit (x : Exchange ι σ) (http : HttpRequest) :
    (∃ cause, x.Refuses http cause) ∨ ∃ assembled, (x.assemble http).1 = .emit assembled := by
  cases hAction : (x.assemble http).1 with
  | pending => exact .inl ⟨unfinished, .unfinished (.inl hAction)⟩
  | «continue» => exact .inl ⟨unfinished, .unfinished (.inr hAction)⟩
  | reject cause => exact .inl ⟨cause, .rejected hAction⟩
  | fatal cause => exact .inl ⟨cause, .broken hAction⟩
  | emit assembled => exact .inr ⟨assembled, rfl⟩

/-- A connection with nothing under way refuses no request for a fatal failure. -/
theorem isFatal_eq_false_of_refuses (hIdle : x.assembler = .empty) (h : x.Refuses http cause) :
    cause.isFatal = false := by
  have hVerdict := http.isVerdict_verdict
  have hAction : (x.assemble http).1 = http.verdict := congrArg Prod.fst (assemble_eq hIdle http)
  rw [← hAction] at hVerdict
  cases h with
  | rejected h =>
    rw [h] at hVerdict
    cases hVerdict with
    | reject hMild => exact hMild
  | broken h =>
    rw [h] at hVerdict
    cases hVerdict
  | unfinished h => rcases h with h | h <;> rw [h] at hVerdict <;> cases hVerdict

variable [BindingIndex ι]

/-- The request is dispatched, and this is the failure that comes back. -/
def DispatchFails (x : Exchange ι σ) (http : HttpRequest) (cause : Error) : Prop :=
  ∃ assembled, (x.assemble http).1 = .emit assembled ∧
    (x.dispatcher.dispatch assembled.request x.state).1 = .error cause

theorem answer_of_refuses (h : x.Refuses http cause) : (x.serve http).1 = cause.failureAnswer := by
  unfold serve respond
  cases h with
  | rejected h | broken h => simp [h]
  | unfinished h => rcases h with h | h <;> simp [h]

theorem serve_of_emit {assembled : AssembledRequest} (h : (x.assemble http).1 = .emit assembled) :
    (x.serve http).1 = match (x.dispatcher.dispatch assembled.request x.state).1 with
      | .ok outcome => outcome.response
      | .error cause => cause.answer := by
  obtain ⟨assembler, hAssembled⟩ := x.exists_assemble_eq http
  unfold serve respond dispatch
  simp only [h, hAssembled]
  cases (x.dispatcher.dispatch assembled.request x.state).1 <;> rfl

theorem isClosing_serve_iff : (x.serve http).1.isClosing = true ↔
    ∃ cause, x.Refuses http cause ∧ cause.isFatal = true := by
  constructor
  · intro hClosing
    rcases x.refuses_or_emit http with ⟨cause, hRefuses⟩ | ⟨assembled, hEmit⟩
    · rw [answer_of_refuses hRefuses, Error.isClosing_failureAnswer] at hClosing
      exact ⟨cause, hRefuses, hClosing⟩
    · rw [serve_of_emit hEmit] at hClosing
      split at hClosing <;> simp at hClosing
  · rintro ⟨cause, hRefuses, hFatal⟩
    rw [answer_of_refuses hRefuses, Error.isClosing_failureAnswer, hFatal]

end Exchange

/-- An answer is marked as the last on its connection exactly if the request was refused for a fatal
failure before it was dispatched. If no handler fails fatally by itself, those are all the requests with a
fatal failure. On a connection that serves one request after the other there are none of them, so what a
handler makes fatal leaves the connection open. -/
theorem closes_exactly_for_fatal_refusals {ι : Type → Type} [BindingIndex ι] {σ : Type}
    (x : Exchange ι σ) (http : HttpRequest) :
    ((x.serve http).1.isClosing = true ↔ ∃ cause, x.Refuses http cause ∧ cause.isFatal = true) ∧
    (∀ cause, x.Refuses http cause → (x.serve http).1 = cause.failureAnswer) ∧
    (∀ cause, x.DispatchFails http cause → (x.serve http).1 = cause.answer) ∧
    (∀ cause, x.DispatchFails http cause → cause.isFatal = true →
      ∃ assembled h, (x.assemble http).1 = .emit assembled ∧
        x.dispatcher.find? assembled.request = some h ∧ h.active = true ∧
          ∃ finish later,
            h.logic.receive assembled.request (h.context assembled.request) x.state =
              (.work finish, later) ∧ (finish later).1 = .failure cause) ∧
    ((∀ cause, x.DispatchFails http cause → cause.isFatal = false) →
      ((x.serve http).1.isClosing = true ↔
        ∃ cause, (x.Refuses http cause ∨ x.DispatchFails http cause) ∧ cause.isFatal = true)) ∧
    ∀ (dispatcher : Dispatcher ι σ) (state : σ) (turns : List (ConnectionTurn ι σ)),
      (((Exchange.fresh dispatcher state).run turns).serve http).1.isClosing = false := by
  refine ⟨Exchange.isClosing_serve_iff, fun cause => Exchange.answer_of_refuses, ?_, ?_, ?_, ?_⟩
  · rintro cause ⟨assembled, hEmit, hFailed⟩
    rw [Exchange.serve_of_emit hEmit, hFailed]
  · rintro cause ⟨assembled, hEmit, hFailed⟩ hFatal
    obtain ⟨h, hFound, hOwn⟩ := Dispatcher.exists_failure_of_fatal hFailed hFatal
    exact ⟨assembled, h, hEmit, hFound, hOwn⟩
  · intro hMild
    rw [Exchange.isClosing_serve_iff]
    constructor
    · rintro ⟨cause, hRefuses, hFatal⟩
      exact ⟨cause, .inl hRefuses, hFatal⟩
    · rintro ⟨cause, hRefuses | hFails, hFatal⟩
      · exact ⟨cause, hRefuses, hFatal⟩
      · rw [hMild cause hFails] at hFatal
        cases hFatal
  · intro dispatcher state turns
    have hIdle : ((Exchange.fresh dispatcher state).run turns).assembler = .empty :=
      Exchange.assembler_run rfl turns
    rw [Bool.eq_false_iff]
    intro hClosing
    obtain ⟨cause, hRefuses, hFatal⟩ := Exchange.isClosing_serve_iff.mp hClosing
    rw [Exchange.isFatal_eq_false_of_refuses hIdle hRefuses] at hFatal
    cases hFatal

namespace Sample

/-- A handler whose work ends in a fatal failure. -/
def broken : Handler Nat :=
  .new ⟨.get, []⟩ (.ofFunction fun _ _ n => (.failure (.protocol "broken"), n + 1))

def rootRequest : HttpRequest := ⟨⟨"GET", ⟨"/", "/"⟩, []⟩, []⟩

/-- A connection that has emitted a request and not finished it. -/
def busy (d : Dispatcher Bindings Nat) : Exchange Bindings Nat :=
  { Exchange.fresh d 0 with assembler := ⟨.complete, none, []⟩ }

theorem exists_dispatcher_of_broken :
    ∃ d : Dispatcher Bindings Nat, Dispatcher.new server [broken] = .ok d :=
  exists_ok_of_toBool (by decide +kernel)

/-- What comes back is fatal. -/
theorem dispatchFails_of_broken {d : Dispatcher Bindings Nat}
    (hNew : Dispatcher.new server [broken] = .ok d) :
    (Exchange.fresh d 0).DispatchFails rootRequest (.protocol "broken") := by
  have hLongest : IsLongestPrefix ([broken].map (·.binding)) ⟨.get, []⟩ broken.binding :=
    ⟨by decide, by decide, by decide⟩
  obtain ⟨-, hFound⟩ := Dispatcher.find?_of_isLongestPrefix hNew (List.mem_singleton.mpr rfl) hLongest
  refine ⟨⟨rootRequest.head, [], ⟨.get, []⟩⟩, ?_, ?_⟩
  · rw [Exchange.assemble_eq rfl]
    rfl
  · have hActive : d.active = true := (Dispatcher.new_eq_ok hNew).2.1
    simp only [Exchange.fresh, Dispatcher.dispatch, hActive, hFound]
    rfl

end Sample

/-- A fatal failure of a handler leaves the connection open. -/
theorem stays_open_after_fatal_failure :
    ∃ d : Dispatcher Bindings Nat, Dispatcher.new Sample.server [Sample.broken] = .ok d ∧
      (Exchange.fresh d 0).DispatchFails Sample.rootRequest (.protocol "broken") ∧
      (Error.protocol "broken").isFatal = true ∧
      ((Exchange.fresh d 0).serve Sample.rootRequest).1.isClosing = false ∧
      ¬ ∀ (x : Exchange Bindings Nat) (http : HttpRequest),
        (x.serve http).1.isClosing = true ↔
          ∃ cause, (x.Refuses http cause ∨ x.DispatchFails http cause) ∧ cause.isFatal = true := by
  obtain ⟨d, hNew⟩ := Sample.exists_dispatcher_of_broken
  have hFails := Sample.dispatchFails_of_broken hNew
  have hOpen : ((Exchange.fresh d 0).serve Sample.rootRequest).1.isClosing = false := by
    obtain ⟨assembled, hEmit, hFailed⟩ := hFails
    rw [Exchange.serve_of_emit hEmit, hFailed]
    rfl
  refine ⟨d, hNew, hFails, rfl, hOpen, fun hClaim => ?_⟩
  have hClosing := (hClaim _ _).mpr ⟨_, .inr hFails, rfl⟩
  rw [hOpen] at hClosing
  cases hClosing

/-- While a request is being handled, another one on the same connection is refused for good. -/
theorem closes_exactly_for_fatal_refusals_busy :
    ∃ d : Dispatcher Bindings Nat, Dispatcher.new Sample.server [Sample.broken] = .ok d ∧
      ((Sample.busy d).serve Sample.rootRequest).1.isClosing = true ∧
      ((Exchange.fresh d 0).serve Sample.rootRequest).1.isClosing = false := by
  obtain ⟨d, hNew⟩ := Sample.exists_dispatcher_of_broken
  refine ⟨d, hNew, ?_, ?_⟩
  · obtain ⟨hClosing, -⟩ := closes_exactly_for_fatal_refusals (Sample.busy d) Sample.rootRequest
    exact hClosing.mpr ⟨_, .broken rfl, rfl⟩
  · obtain ⟨-, -, -, -, -, hNever⟩ :=
      closes_exactly_for_fatal_refusals (Exchange.fresh d 0) Sample.rootRequest
    exact hNever d 0 []

end Switchyard.Rest
