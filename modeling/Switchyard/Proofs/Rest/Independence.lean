import Switchyard.Rest.Exchange

/-! # Requests on one connection do not affect each other

What a connection makes of a request depends on the request alone, and what it answers on the
dispatcher and the state of the application as well. Nothing of a request stays with the connection,
whatever becomes of it.
-/
namespace Switchyard.Rest
set_option autoImplicit false

namespace Head

/-- The head that is fed last, without its expectations if leave to send the body had to be given. -/
def admitted (head : Head) : Head := if head.expectsContinue then head.withoutExpectation else head

theorem expectsContinue_admitted (head : Head) : head.admitted.expectsContinue = false := by
  unfold admitted
  split
  case isTrue => exact head.expectsContinue_withoutExpectation
  case isFalse hNone => exact Bool.eq_false_iff.mpr hNone

theorem request_admitted (head : Head) : head.admitted.request = head.request := by
  unfold admitted
  split <;> rfl

end Head

/-- The body made up of these pieces, unless one of them cannot be decoded. -/
def bodyOf : List Frame → Except String Bytes
  | [] => .ok []
  | .data data :: frames => (bodyOf frames).map (data ++ ·)
  | .trailers :: frames => bodyOf frames
  | .failure cause :: _ => .error cause

namespace AssemblyAction

/-- What becomes of an accepted head whose body has come or turned out to be of no use. -/
def ofBody (head : Head) (request : Request) : Except String Bytes → AssemblyAction
  | .ok body => .emit { head, body, request }
  | .error cause => .reject (.decode cause)

/-- The assembler behind this action. -/
def leaves : AssemblyAction → Assembler
  | .emit _ => { stage := .complete, pending := none, body := [] }
  | _ => .empty

/-- Whether a request is handled or refused, and by no fault of the connection. -/
inductive IsVerdict : AssemblyAction → Prop
  | emit (assembled : AssembledRequest) : IsVerdict (.emit assembled)
  | reject {cause : Error} (hMild : cause.isFatal = false) : IsVerdict (.reject cause)

end AssemblyAction

namespace HttpRequest

/-- What is to be made of a request, whatever came before it. -/
def verdict (http : HttpRequest) : AssemblyAction :=
  match http.head.request with
  | .ok request => .ofBody http.head.admitted request (bodyOf http.frames)
  | .error cause => .reject (.badSyntax cause)

theorem isVerdict_verdict (http : HttpRequest) : http.verdict.IsVerdict := by
  unfold verdict
  cases http.head.request with
  | error cause => exact .reject rfl
  | ok request =>
    cases bodyOf http.frames with
    | ok body => exact .emit _
    | error cause => exact .reject rfl

end HttpRequest

namespace Exchange
variable {ι : Type → Type} {σ : Type} {x : Exchange ι σ}

/-- A connection on which no request has come yet. -/
def fresh (dispatcher : Dispatcher ι σ) (state : σ) : Exchange ι σ :=
  { assembler := .empty, dispatcher, state, afterwards := [], metrics := [] }

section Assemble
variable {head : Head} {request : Request}

theorem feed_head_of_ok (h : x.assembler = .empty) (hSettled : head.expectsContinue = false)
    (hRequest : head.request = .ok request) :
    x.feed (.head head) =
      (.pending, { x with assembler := ⟨.headersReceived, some (head, request), []⟩ }) := by
  simp [feed, h, Assembler.onEvent, Assembler.onHead, Assembler.empty, hSettled, hRequest]

theorem feed_head_of_error (h : x.assembler = .empty) (hSettled : head.expectsContinue = false)
    {cause : SyntaxError} (hRequest : head.request = .error cause) :
    x.feed (.head head) = (.reject (.badSyntax cause), { x with assembler := .empty }) := by
  simp [feed, h, Assembler.onEvent, Assembler.onHead, Assembler.empty, hSettled, hRequest]

theorem feed_head_of_expectation (h : x.assembler = .empty) (hExpects : head.expectsContinue = true) :
    x.feed (.head head) = (.continue, x) := by
  obtain ⟨assembler, dispatcher, state, afterwards, metrics⟩ := x
  cases h
  simp [feed, Assembler.onEvent, Assembler.onHead, hExpects]

/-- Giving leave is feeding the head that needs none. -/
theorem feedHead_eq (h : x.assembler = .empty) (head : Head) :
    x.feedHead head = x.feed (.head head.admitted) := by
  unfold feedHead Head.admitted
  cases hExpects : head.expectsContinue with
  | true => rw [feed_head_of_expectation h hExpects, if_pos rfl]
  | false =>
    rw [if_neg Bool.false_ne_true]
    cases hRequest : head.request with
    | ok request => rw [feed_head_of_ok h hExpects hRequest]
    | error cause => rw [feed_head_of_error h hExpects hRequest]

theorem feedBody_of_settled (action : AssemblyAction) (hSettled : action ≠ .pending)
    (frames : List Frame) : x.feedBody action frames = (action, x) := by
  cases action with
  | pending => exact absurd rfl hSettled
  | «continue» | reject cause | emit assembled | fatal cause => cases frames <;> rfl

theorem feed_chunk_of_underway {stage : Stage} {body : Bytes}
    (hStage : stage = .headersReceived ∨ stage = .bodyAccumulating)
    (h : x.assembler = ⟨stage, some (head, request), body⟩) (data : Bytes) :
    x.feed (.chunk data) =
      (.pending, { x with assembler := ⟨.bodyAccumulating, some (head, request), body ++ data⟩ }) := by
  rcases hStage with rfl | rfl <;> simp [feed, h, Assembler.onEvent, Assembler.onChunk]

theorem feed_finish_of_underway {stage : Stage} {body : Bytes}
    (hStage : stage = .headersReceived ∨ stage = .bodyAccumulating)
    (h : x.assembler = ⟨stage, some (head, request), body⟩) :
    x.feed .finish =
      (.emit { head, body, request },
        { x with assembler := { stage := .complete, pending := none, body := [] } }) := by
  rcases hStage with rfl | rfl <;> simp [feed, h, Assembler.onEvent, Assembler.onFinish]

/-- The pieces of a body follow what has come of it, until its end or until one is of no use. -/
theorem feedBody_of_underway {stage : Stage} {body : Bytes}
    (hStage : stage = .headersReceived ∨ stage = .bodyAccumulating)
    (h : x.assembler = ⟨stage, some (head, request), body⟩) (frames : List Frame) :
    let verdict := AssemblyAction.ofBody head request ((bodyOf frames).map (body ++ ·))
    x.feedBody .pending frames = (verdict, { x with assembler := verdict.leaves }) := by
  -- The first piece of data changes the stage, and each of them the body.
  induction frames generalizing x stage body with
  | nil =>
    have hEnd := feed_finish_of_underway hStage h
    rwa [← List.append_nil body] at hEnd
  | cons frame frames ih =>
    cases frame with
    | trailers => exact ih hStage h
    | failure cause => exact feedBody_of_settled (.reject (.decode cause)) nofun frames
    | data data =>
      have hRest := ih (x := { x with
        assembler := ⟨.bodyAccumulating, some (head, request), body ++ data⟩ }) (.inr rfl) rfl
      have hBody : (bodyOf (.data data :: frames)).map (body ++ ·) =
          (bodyOf frames).map (body ++ data ++ ·) := by
        rw [bodyOf]
        cases bodyOf frames <;> simp [Except.map]
      simp only [feedBody, feed_chunk_of_underway hStage h, hBody]
      exact hRest

theorem assemble_eq (h : x.assembler = .empty) (http : HttpRequest) :
    x.assemble http = (http.verdict, { x with assembler := http.verdict.leaves }) := by
  have hSettled := http.head.expectsContinue_admitted
  unfold assemble HttpRequest.verdict
  rw [feedHead_eq h]
  cases hRequest : http.head.request with
  | error cause =>
    rw [feed_head_of_error h hSettled (http.head.request_admitted.trans hRequest)]
    exact feedBody_of_settled (.reject (.badSyntax cause)) nofun http.frames
  | ok request =>
    rw [feed_head_of_ok h hSettled (http.head.request_admitted.trans hRequest)]
    have hBody := feedBody_of_underway (x := { x with
      assembler := ⟨.headersReceived, some (http.head.admitted, request), []⟩ }) (.inl rfl) rfl
      http.frames
    cases hFrames : bodyOf http.frames <;> rw [hFrames] at hBody <;> exact hBody

end Assemble

variable [BindingIndex ι]

/-- A verdict is answered alike wherever it was come to, and nothing is under way any more. -/
theorem respond_eq (x : Exchange ι σ) {verdict : AssemblyAction} (hVerdict : verdict.IsVerdict) :
    let (response, y) :=
      { fresh x.dispatcher x.state with assembler := verdict.leaves : Exchange ι σ }.respond verdict
    { x with assembler := verdict.leaves : Exchange ι σ }.respond verdict =
      (response, { y with afterwards := x.afterwards ++ y.afterwards, metrics := x.metrics }) ∧
    y.assembler = .empty := by
  cases hVerdict with
  | reject hMild => simp [respond, AssemblyAction.leaves, fresh]
  | emit assembled =>
    cases hDispatched : x.dispatcher.dispatch assembled.request x.state with
    | mk result state =>
      cases result <;>
        simp [respond, dispatch, AssemblyAction.leaves, fresh, Assembler.finish, Assembler.empty, hDispatched]

/-- What a connection with nothing under way makes of a request is what a fresh one does, but for what
has already been left to be done and what has already been counted. -/
theorem serve_eq (h : x.assembler = .empty) (http : HttpRequest) :
    let (response, y) := (fresh x.dispatcher x.state).serve http
    x.serve http = (response, { y with
      afterwards := x.afterwards ++ y.afterwards
      metrics := x.metrics.count (.responses response.status) }) ∧
    y.assembler = .empty := by
  obtain ⟨hRespond, hIdle⟩ := respond_eq x http.isVerdict_verdict
  unfold serve
  rw [assemble_eq h, assemble_eq (x := fresh x.dispatcher x.state) rfl]
  simp only [hRespond]
  exact ⟨rfl, hIdle⟩

end Exchange

/-- What happens to a connection: it serves a request, or what it shares with others changes. -/
inductive ConnectionTurn (ι : Type → Type) (σ : Type) where
  | serve (http : HttpRequest)
  | elsewhere (dispatcher : Dispatcher ι σ) (state : σ)

namespace Exchange
variable {ι : Type → Type} [BindingIndex ι] {σ : Type} {x : Exchange ι σ}

def turn (x : Exchange ι σ) : ConnectionTurn ι σ → Exchange ι σ
  | .serve http => (x.serve http).2
  | .elsewhere dispatcher state => { x with dispatcher, state }

def run (x : Exchange ι σ) (turns : List (ConnectionTurn ι σ)) : Exchange ι σ := turns.foldl turn x

theorem assembler_turn (h : x.assembler = .empty) (t : ConnectionTurn ι σ) :
    (x.turn t).assembler = .empty := by
  cases t with
  | elsewhere dispatcher state => exact h
  | serve http =>
    obtain ⟨hServe, hIdle⟩ := serve_eq h http
    rw [turn, hServe]
    exact hIdle

theorem assembler_run (h : x.assembler = .empty) (turns : List (ConnectionTurn ι σ)) :
    (x.run turns).assembler = .empty := by
  induction turns generalizing x with
  | nil => exact h
  | cons t turns ih => exact ih (assembler_turn h t)

end Exchange

/-- Whatever a connection has served before, and whatever has happened elsewhere, it is idle before
and after each request. The request is handled or refused, by the verdict that it deserves by itself
and never by a fault of the connection, and a fresh connection with the same dispatcher and the same
state would give the same answer and have the same effect. -/
theorem requests_are_independent {ι : Type → Type} [BindingIndex ι] {σ : Type}
    (dispatcher : Dispatcher ι σ) (state : σ) (turns : List (ConnectionTurn ι σ)) (http : HttpRequest) :
    let x := (Exchange.fresh dispatcher state).run turns
    let y := Exchange.fresh x.dispatcher x.state
    x.assembler = .empty ∧ (x.serve http).2.assembler = .empty ∧
    (x.assemble http).1 = http.verdict ∧ http.verdict.IsVerdict ∧
    (x.serve http).1 = (y.serve http).1 ∧
    (x.serve http).2.dispatcher = (y.serve http).2.dispatcher ∧
    (x.serve http).2.state = (y.serve http).2.state ∧
    (x.serve http).2.afterwards = x.afterwards ++ (y.serve http).2.afterwards ∧
    (x.serve http).2.metrics = x.metrics.count (.responses (y.serve http).1.status) := by
  intro x y
  have hIdle : x.assembler = .empty := Exchange.assembler_run rfl turns
  obtain ⟨hServe, hAfter⟩ := Exchange.serve_eq hIdle http
  rw [hServe, Exchange.assemble_eq hIdle]
  exact ⟨hIdle, hAfter, rfl, http.isVerdict_verdict, rfl, rfl, rfl, rfl, rfl⟩

end Switchyard.Rest
