import Switchyard.Proofs.Rest.Closing

/-! # What a client is not told

A failure has a kind, a status and sometimes a reason for the client. Whatever else it says is meant for the
operator, and so is what a crash leaves behind. Two requests that fail alike but for that get the same answer.
-/
namespace Switchyard.Rest
set_option autoImplicit false

/-- What has gone wrong, in no words. -/
inductive ErrorKind where
  | badSyntax
  | bindingNotFound
  | duplicateBinding
  | alreadyAssociated
  | unassociated
  | inactive
  | decode
  | badRequest
  | timeout
  | externallyVisible
  | handling
  | protocol
deriving DecidableEq, Repr

namespace Error
variable {a b : Error}

def kind : Error → ErrorKind
  | badSyntax _ => .badSyntax
  | bindingNotFound _ => .bindingNotFound
  | duplicateBinding _ => .duplicateBinding
  | alreadyAssociated _ => .alreadyAssociated
  | unassociated _ => .unassociated
  | inactive _ => .inactive
  | decode _ => .decode
  | badRequest _ => .badRequest
  | timeout .. => .timeout
  | externallyVisible .. => .externallyVisible
  | handling _ => .handling
  | protocol _ => .protocol

/-- The same failure but for what is said in it to the operator alone. -/
inductive AlikeOutside : Error → Error → Prop
  | badSyntax (cause cause' : SyntaxError) : AlikeOutside (.badSyntax cause) (.badSyntax cause')
  | bindingNotFound (request request' : String) :
      AlikeOutside (.bindingNotFound request) (.bindingNotFound request')
  | duplicateBinding (binding binding' : String) :
      AlikeOutside (.duplicateBinding binding) (.duplicateBinding binding')
  | alreadyAssociated (binding binding' : String) :
      AlikeOutside (.alreadyAssociated binding) (.alreadyAssociated binding')
  | unassociated (binding binding' : String) :
      AlikeOutside (.unassociated binding) (.unassociated binding')
  | inactive (subject subject' : String) : AlikeOutside (.inactive subject) (.inactive subject')
  | decode (cause cause' : String) : AlikeOutside (.decode cause) (.decode cause')
  | badRequest (external : String) : AlikeOutside (.badRequest external) (.badRequest external)
  | timeout (internal internal' external : String) (limit limit' : Duration) :
      AlikeOutside (.timeout internal external limit) (.timeout internal' external limit')
  | externallyVisible (status : Nat) (internal internal' external : String) :
      AlikeOutside (.externallyVisible status internal external)
        (.externallyVisible status internal' external)
  | handling (cause cause' : String) : AlikeOutside (.handling cause) (.handling cause')
  | protocol (cause cause' : String) : AlikeOutside (.protocol cause) (.protocol cause')

theorem alikeOutside_iff :
    a.AlikeOutside b ↔ a.kind = b.kind ∧ a.status = b.status ∧ a.external? = b.external? := by
  constructor
  · intro h
    cases h <;> exact ⟨rfl, rfl, rfl⟩
  · rintro ⟨hKind, hStatus, hExternal⟩
    cases a <;> cases b <;> cases hKind <;> cases hStatus <;> cases hExternal <;> constructor

theorem AlikeOutside.answer_eq (h : a.AlikeOutside b) : a.answer = b.answer := by
  obtain ⟨-, hStatus, hExternal⟩ := alikeOutside_iff.mp h
  rw [answer, answer, hStatus, hExternal]

end Error

namespace Handler
variable {σ : Type} {h : Handler σ} {request : Request} {state : σ} {crash : Crash}

/-- The logic crashes over a request, before it has begun its work or in the middle of it. -/
inductive Crashes (h : Handler σ) (request : Request) (state : σ) (crash : Crash) : Prop
  | early (hReceived : (h.logic.receive request (h.context request) state).1 = .crash crash)
  | late {finish : σ → Ending σ × σ} {later : σ}
      (hReceived : h.logic.receive request (h.context request) state = (.work finish, later))
      (hEnding : (finish later).1 = .crash crash)

theorem Crashes.handle (hCrash : h.Crashes request state crash) (hActive : h.active = true) :
    (h.handle request state).1 = .error (h.crashed crash) := by
  unfold Handler.handle
  cases hCrash with
  | early hReceived =>
    cases hLogic : h.logic.receive request (h.context request) state with
    | mk reception later =>
      rw [hLogic] at hReceived
      cases hReceived
      simp [hActive]
  | late hReceived hEnding => simp [hActive, hReceived, hEnding, settle]

end Handler

namespace Exchange
variable {ι : Type → Type} {σ : Type} {x : Exchange ι σ} {http : HttpRequest} {cause : Error}

/-- With nothing under way a head is taken up or is of no use. -/
theorem feedHead_of_idle (hIdle : x.assembler.stage = .idle) (head : Head) :
    (∃ request, x.feedHead head = (.pending, { x with
      assembler := ⟨.headersReceived, some (head.admitted, request), x.assembler.body⟩ })) ∨
    ∃ cause, (x.feedHead head).1 = .reject (.badSyntax cause) := by
  obtain ⟨⟨stage, pending, body⟩, dispatcher, state, afterwards, metrics⟩ := x
  cases hIdle
  have hSettled := head.expectsContinue_withoutExpectation
  have hSame : head.withoutExpectation.request = head.request := rfl
  cases hExpects : head.expectsContinue <;> cases hRequest : head.request <;>
    simp [feedHead, feed, Assembler.onEvent, Assembler.onHead, Head.admitted, hExpects, hRequest,
      hSettled, hSame]

theorem isVerdict_assemble_of_idle (hIdle : x.assembler.stage = .idle) (http : HttpRequest) :
    (x.assemble http).1.IsVerdict := by
  change ((x.feedHead http.head).2.feedBody (x.feedHead http.head).1 http.frames).1.IsVerdict
  rcases feedHead_of_idle hIdle http.head with ⟨request, hHead⟩ | ⟨cause, hHead⟩
  · rw [hHead, feedBody_of_underway (.inl rfl) rfl]
    cases bodyOf http.frames with
    | ok body => exact .emit _
    | error cause => exact .reject rfl
  · rw [hHead, feedBody_of_settled (.reject (.badSyntax cause)) nofun]
    exact .reject rfl

theorem isFatal_eq_false_of_idle (hIdle : x.assembler.stage = .idle) (h : x.Refuses http cause) :
    cause.isFatal = false := by
  have hVerdict := isVerdict_assemble_of_idle hIdle http
  cases h with
  | rejected h =>
    rw [h] at hVerdict
    cases hVerdict with
    | reject hMild => exact hMild
  | broken h =>
    rw [h] at hVerdict
    cases hVerdict
  | unfinished h => rcases h with h | h <;> rw [h] at hVerdict <;> cases hVerdict

variable [BindingIndex ι]

/-- The request ends in this failure, before it is dispatched or by that. -/
def Fails (x : Exchange ι σ) (http : HttpRequest) (cause : Error) : Prop :=
  x.Refuses http cause ∨ x.DispatchFails http cause

/-- The request reaches a handler whose logic crashes over it. -/
def HandlerCrashes (x : Exchange ι σ) (http : HttpRequest) : Prop :=
  ∃ assembled h crash, (x.assemble http).1 = .emit assembled ∧ x.dispatcher.active = true ∧
    x.dispatcher.find? assembled.request = some h ∧ h.active = true ∧
      h.Crashes assembled.request x.state crash

/-- A request that ends in no failure is answered by what its handler has made of it. -/
theorem fails_or_outcome (x : Exchange ι σ) (http : HttpRequest) :
    (∃ cause, x.Fails http cause) ∨ ∃ outcome : Outcome σ, (x.serve http).1 = outcome.response := by
  rcases x.refuses_or_emit http with ⟨cause, hRefuses⟩ | ⟨assembled, hEmit⟩
  · exact .inl ⟨cause, .inl hRefuses⟩
  · cases hResult : (x.dispatcher.dispatch assembled.request x.state).1 with
    | error cause => exact .inl ⟨cause, .inr ⟨assembled, hEmit, hResult⟩⟩
    | ok outcome => exact .inr ⟨outcome, by rw [serve_of_emit hEmit, hResult]⟩

theorem answer_of_fails (hIdle : x.assembler.stage = .idle) (h : x.Fails http cause) :
    (x.serve http).1 = cause.answer := by
  rcases h with hRefuses | ⟨assembled, hEmit, hFailed⟩
  · have hMild := isFatal_eq_false_of_idle hIdle hRefuses
    rw [answer_of_refuses hRefuses, Error.failureAnswer, hMild, if_neg Bool.false_ne_true]
  · rw [serve_of_emit hEmit, hFailed]

theorem HandlerCrashes.fails (hCrashes : x.HandlerCrashes http) :
    ∃ text, x.Fails http (.handling text) := by
  obtain ⟨assembled, h, crash, hEmit, hOpen, hFound, hActive, hCrash⟩ := hCrashes
  have hFailed : (x.dispatcher.dispatch assembled.request x.state).1 = .error (h.crashed crash) := by
    simp only [Dispatcher.dispatch, hOpen, hFound]
    exact hCrash.handle hActive
  exact ⟨_, .inr ⟨assembled, hEmit, hFailed⟩⟩

end Exchange

/-- Two requests on connections with nothing under way, whatever dispatchers and applications they belong
to, get the same answer, head and body, if they end in failures of one kind with one status and one reason
for the client: that is, in failures that are the same but for what is internal. A crash over a request
ends in such a failure, be it early or late and whatever it leaves behind. Only what a handler itself has
made of a request is answered otherwise. -/
theorem internal_detail_stays_inside {ι κ : Type → Type} [BindingIndex ι] [BindingIndex κ] {σ τ : Type}
    (x : Exchange ι σ) (y : Exchange κ τ) (http other : HttpRequest)
    (hIdle : x.assembler.stage = .idle) (hIdle' : y.assembler.stage = .idle) :
    (∀ a b : Error, x.Fails http a → y.Fails other b → a.kind = b.kind → a.status = b.status →
      a.external? = b.external? → (x.serve http).1 = (y.serve other).1) ∧
    (∀ a b : Error, a.kind = b.kind ∧ a.status = b.status ∧ a.external? = b.external? ↔
      a.AlikeOutside b) ∧
    (x.HandlerCrashes http → y.HandlerCrashes other → (x.serve http).1 = (y.serve other).1) ∧
    ((∃ a, x.Fails http a) ∨ ∃ outcome : Outcome σ, (x.serve http).1 = outcome.response) := by
  have hAlike {a b : Error} (hFails : x.Fails http a) (hFails' : y.Fails other b)
      (h : a.AlikeOutside b) : (x.serve http).1 = (y.serve other).1 := by
    rw [Exchange.answer_of_fails hIdle hFails, Exchange.answer_of_fails hIdle' hFails', h.answer_eq]
  refine ⟨fun a b hFails hFails' hKind hStatus hExternal => ?_, fun a b => Error.alikeOutside_iff.symm,
    fun hCrashes hCrashes' => ?_, x.fails_or_outcome http⟩
  · exact hAlike hFails hFails' (Error.alikeOutside_iff.mpr ⟨hKind, hStatus, hExternal⟩)
  · obtain ⟨text, hFails⟩ := hCrashes.fails
    obtain ⟨text', hFails'⟩ := hCrashes'.fails
    exact hAlike hFails hFails' (.handling text text')

namespace Sample

/-- Logic that crashes as soon as it is asked, and tells why. -/
def outspoken : Logic Nat where
  receive _ _ n := (.crash ⟨some "no entry for the key 7f3a"⟩, n)
  onShutdown n := (none, n)

/-- Logic that crashes over its work and leaves nothing behind. -/
def silent : Logic Nat := .ofFunction fun _ _ n => (.crash ⟨none⟩, n + 1)

/-- Logic that has waited in vain. -/
def impatient (internal : String) (limit : Duration) : Logic Nat :=
  .ofFunction fun _ _ n => (.failure (.timeout internal "Echo response timeout" limit), n)

/-- A dispatcher that has this logic for everything that can be got. -/
structure Serves (d : Dispatcher Bindings Nat) (logic : Logic Nat) : Prop where
  active : d.active = true
  found : d.find? ⟨.get, []⟩ = some (Handler.joined (.new ⟨.get, []⟩ logic) server)

theorem Serves.dispatch {d : Dispatcher Bindings Nat} {logic : Logic Nat} (h : Serves d logic) (n : Nat) :
    d.dispatch ⟨.get, []⟩ n =
      (Handler.joined (.new ⟨.get, []⟩ logic) server).handle ⟨.get, []⟩ n := by
  simp only [Dispatcher.dispatch, h.active, h.found]
  rfl

theorem exists_serves (logic : Logic Nat) : ∃ d : Dispatcher Bindings Nat, Serves d logic := by
  obtain ⟨d, hNew⟩ :
      ∃ d : Dispatcher Bindings Nat, Dispatcher.new server [.new ⟨.get, []⟩ logic] = .ok d := ⟨_, rfl⟩
  have hLongest : IsLongestPrefix [⟨.get, []⟩] ⟨.get, []⟩ ⟨.get, []⟩ := ⟨by decide, by decide, by decide⟩
  obtain ⟨-, hFound⟩ := Dispatcher.find?_of_isLongestPrefix hNew (List.mem_singleton.mpr rfl) hLongest
  exact ⟨d, (Dispatcher.new_eq_ok hNew).2.1, hFound⟩

theorem assemble_rootRequest (d : Dispatcher Bindings Nat) :
    ((Exchange.fresh d 0).assemble rootRequest).1 = .emit ⟨rootRequest.head, [], ⟨.get, []⟩⟩ := by
  rw [Exchange.assemble_eq rfl]
  rfl

end Sample

/-- Two waits that ended for different reasons and after different times, and two crashes. -/
theorem internal_detail_stays_inside_crashing :
    ∃ a b c d : Dispatcher Bindings Nat,
      Sample.Serves a (Sample.impatient "conn-1 is closed" ⟨1⟩) ∧ Sample.Serves b (Sample.impatient "" ⟨2⟩) ∧
      Sample.Serves c Sample.outspoken ∧ Sample.Serves d Sample.silent ∧
      ((Exchange.fresh a 0).serve Sample.rootRequest).1 =
        ((Exchange.fresh b 0).serve Sample.rootRequest).1 ∧
      ((Exchange.fresh c 0).serve Sample.rootRequest).1 =
        ((Exchange.fresh d 0).serve Sample.rootRequest).1 := by
  obtain ⟨a, ha⟩ := Sample.exists_serves (Sample.impatient "conn-1 is closed" ⟨1⟩)
  obtain ⟨b, hb⟩ := Sample.exists_serves (Sample.impatient "" ⟨2⟩)
  obtain ⟨c, hc⟩ := Sample.exists_serves Sample.outspoken
  obtain ⟨d, hd⟩ := Sample.exists_serves Sample.silent
  refine ⟨a, b, c, d, ha, hb, hc, hd, ?_, ?_⟩
  · obtain ⟨hAlike, -⟩ := internal_detail_stays_inside (Exchange.fresh a 0) (Exchange.fresh b 0)
      Sample.rootRequest Sample.rootRequest rfl rfl
    refine hAlike (.timeout "conn-1 is closed" "Echo response timeout" ⟨1⟩)
      (.timeout "" "Echo response timeout" ⟨2⟩) (.inr ⟨_, Sample.assemble_rootRequest a, ?_⟩)
      (.inr ⟨_, Sample.assemble_rootRequest b, ?_⟩) rfl rfl rfl
    · exact congrArg Prod.fst (ha.dispatch 0)
    · exact congrArg Prod.fst (hb.dispatch 0)
  · obtain ⟨-, -, hCrashes, -⟩ := internal_detail_stays_inside (Exchange.fresh c 0) (Exchange.fresh d 0)
      Sample.rootRequest Sample.rootRequest rfl rfl
    exact hCrashes
      ⟨_, _, ⟨some "no entry for the key 7f3a"⟩, Sample.assemble_rootRequest c, hc.active, hc.found, rfl,
        .early rfl⟩
      ⟨_, _, ⟨none⟩, Sample.assemble_rootRequest d, hd.active, hd.found, rfl, .late rfl rfl⟩

end Switchyard.Rest
