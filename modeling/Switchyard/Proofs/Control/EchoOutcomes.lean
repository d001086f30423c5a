import Switchyard.Control.EchoBackend
import Switchyard.Proofs.Client.ReplyOrigin
import Switchyard.Proofs.Rest.Arguments
import Switchyard.Proofs.Rest.Independence
import Switchyard.Proofs.Text.Utf8

/-! # What comes of an echo request

Whatever the client of an echo request comes back with, there is one answer to it. A failure is a timeout if
somebody has waited in vain at the bottom of it, however many pools could not create a connection because of
that, and all other failures are internal.
-/
namespace Switchyard.Client.Error
set_option autoImplicit false

/-- A failure without the pools that could not create a connection because of it. -/
def root : Error → Error
  | pool (.create cause) => cause.root
  | cause => cause

def throughPools (cause : Error) : Nat → Error
  | 0 => cause
  | n + 1 => pool (.create (cause.throughPools n))

/-- A wait that was in vain. -/
inductive IsWait : Error → Prop
  | response (limit : Duration) : IsWait (.responseTimeout limit)
  | connect (address : String) (limit : Duration) : IsWait (.connectTimeout address limit)

@[simp] theorem root_throughPools (cause : Error) (n : Nat) : (cause.throughPools n).root = cause.root := by
  induction n with
  | zero => rfl
  | succ n ih => exact ih

/-- The root of a failure lies under pools only, and is not itself under one. -/
theorem exists_eq_throughPools (cause : Error) :
    (∃ n, cause = cause.root.throughPools n) ∧ ∀ inner, cause.root ≠ .pool (.create inner) := by
  fun_induction root cause with
  | case1 cause ih =>
    obtain ⟨⟨n, hLayers⟩, hRoot⟩ := ih
    exact ⟨⟨n + 1, congrArg (fun cause => pool (.create cause)) hLayers⟩, hRoot⟩
  | case2 cause hOther => exact ⟨⟨0, rfl⟩, hOther⟩

theorem isTimeout_iff (cause : Error) : cause.isTimeout = true ↔ cause.root.IsWait := by
  fun_induction root cause with
  | case1 cause ih => rw [isTimeout, ih]
  | case2 cause hOther =>
    constructor
    · intro h
      cases cause with
      | responseTimeout limit => exact .response limit
      | connectTimeout address limit => exact .connect address limit
      | pool cause =>
        cases cause with
        | create inner => exact absurd rfl (hOther inner)
        | _ => cases h
      | _ => cases h
    · rintro (_ | _) <;> rfl

/-- A connect that failed is a wait in vain if its time was over. -/
theorem isWait_ofConnect_iff (cause : Net.ConnectError) :
    (ofConnect cause).root.IsWait ↔ cause.isTimeout = true := by
  cases cause with
  | timeout address limit => exact iff_of_true (.connect address limit) rfl
  | failed address cause => exact iff_of_false nofun Bool.false_ne_true

end Switchyard.Client.Error

namespace Switchyard.Rest
set_option autoImplicit false

/-- An answer that has a reason and nothing else. -/
def Response.ofReason (status : Nat) (reason : String) : Response :=
  .json status (Json.Value.object [(reasonField, .string reason)]).compact

/-- The answer to what has become of a request that was dispatched. -/
def Response.ofResult {σ : Type} : Except Error (Outcome σ) → Response
  | .ok outcome => outcome.response
  | .error cause => cause.answer

theorem Exchange.dispatch_of_find? {ι : Type → Type} [BindingIndex ι] {σ : Type} {x : Exchange ι σ}
    {request : Request} {h : Handler σ} (hOpen : x.dispatcher.active = true)
    (hFound : x.dispatcher.find? request = some h) :
    (x.dispatch request).1 = .ofResult (h.handle request x.state).1 ∧
      (x.dispatch request).2.state = (h.handle request x.state).2 := by
  have hDispatch : x.dispatcher.dispatch request x.state = h.handle request x.state := by
    simp [Dispatcher.dispatch, hOpen, hFound]
  unfold dispatch
  rw [hDispatch]
  rcases h.handle request x.state with ⟨_ | _, _⟩ <;> exact ⟨rfl, rfl⟩

end Switchyard.Rest

namespace Switchyard.Control
open Rest Client
set_option autoImplicit false
variable {σ : Type}

/-- An application keeps the connections of its echo client in a pooled client. -/
structure EchoClient.IsPooled (client : EchoClient σ) (get : σ → PooledClient Echo.Codec)
    (set : PooledClient Echo.Codec → σ → σ) : Prop where
  get_set (c : PooledClient Echo.Codec) (state : σ) : get (set c state) = c
  abort (connection : Net.ConnectionId) (state : σ) :
    client.abort connection state = set ((get state).destroy (connection.number - 1)) state

theorem EchoClient.isPooled_pooled (network : Net.Network) (limit : Duration)
    {get : σ → PooledClient Echo.Codec} {set : PooledClient Echo.Codec → σ → σ}
    (hLens : ∀ c state, get (set c state) = c) : (EchoClient.pooled network limit get set).IsPooled get set :=
  ⟨hLens, fun _ _ => rfl⟩

/-- The state has a record of the payloads that have been sent. -/
structure EchoClient.Records (client : EchoClient σ) (log : σ → List Bytes) : Prop where
  send (payload : Bytes) (timeout : Duration) (state : σ) :
    log (client.send payload timeout state).2 = log state ++ [payload]
  abort (connection : Net.ConnectionId) (state : σ) : log (client.abort connection state) = log state

namespace EchoRequest
variable {client : EchoClient σ} {policy : EchoPolicy} {h : Handler σ} {request : Request}

def payloads : List String → List Bytes
  | [text] => [Utf8.encode text]
  | _ => []

theorem payloads_of_others {arguments : List String} (hOthers : arguments.length ≠ 1) :
    payloads arguments = [] := by
  unfold payloads
  split
  case h_1 text => exact absurd rfl hOthers
  case h_2 => rfl

def refusal (binding : Request) : Rest.Response :=
  .ofReason 400 s!"Request {binding.display}... must specify exactly one argument"

def echoed (text : String) : Rest.Response :=
  (Rest.Response.json 200 (Json.Value.object
    [(reasonField, .string "Echo completed"), ("response", .string text)]).compact).withHeader
      "content-language" "en"

/-- What can come of a payload that the client has sent: the answer, and the state that is left. -/
inductive Reports (client : EchoClient σ) (policy : EchoPolicy) (payload : Bytes) (sent : σ) :
    Client.Outcome → Rest.Response → σ → Prop
  | echoed {reply : Client.Response} (hKept : policy.validateResponse = true → reply.payload = payload) :
    Reports client policy payload sent (.ok (some reply)) (echoed (Utf8.decodeLossy reply.payload)) sent
  | altered {reply : Client.Response} (hValidated : policy.validateResponse = true)
      (hAltered : reply.payload ≠ payload) :
    Reports client policy payload sent (.ok (some reply)) (.ofReason 500 "Echo response is invalid")
      (client.abort reply.connection sent)
  | missing : Reports client policy payload sent (.ok none) (.ofReason 500 internalErrorReason) sent
  | late {cause : Client.Error} (hWait : cause.root.IsWait) :
    Reports client policy payload sent (.error cause) (.ofReason 408 "Echo response timeout") sent
  | failed {cause : Client.Error} (hOther : ¬cause.root.IsWait) :
    Reports client policy payload sent (.error cause) (.ofReason 500 internalErrorReason) sent

theorem reports_report (client : EchoClient σ) (policy : EchoPolicy) (payload : Bytes) (sent : σ)
    (h : Handler σ) (outcome : Client.Outcome) :
    Reports client policy payload sent outcome
      (.ofResult (h.settle (report client policy payload sent outcome).1))
      (report client policy payload sent outcome).2 := by
  unfold report
  split
  case h_1 reply =>
    split
    case isTrue hAltered =>
      obtain ⟨hValidated, hAltered⟩ : policy.validateResponse = true ∧ reply.payload ≠ payload := by
        simpa using hAltered
      exact .altered hValidated hAltered
    case isFalse hKept =>
      exact .echoed fun hValidated => by simpa [hValidated] using hKept
  case h_2 => exact .missing
  case h_3 cause =>
    unfold failure
    split
    case isTrue hTimeout => exact .late (cause.isTimeout_iff.mp hTimeout)
    case isFalse hOther => exact .failed (cause.isTimeout_iff.not.mp hOther)

namespace Reports
variable {payload : Bytes} {sent left : σ} {outcome : Client.Outcome} {answer : Rest.Response}
  {reply : Client.Response}

theorem status_ne_400 (h : Reports client policy payload sent outcome answer left) : answer.status ≠ 400 := by
  intro hStatus
  cases h <;> cases hStatus

theorem log_eq {log : σ → List Bytes} (h : Reports client policy payload sent outcome answer left)
    (hRecords : client.Records log) : log left = log sent := by
  cases h with
  | altered => exact hRecords.abort _ sent
  | echoed | missing | late | failed => rfl

theorem status_eq_200_iff (h : Reports client policy payload sent outcome answer left)
    (hValidated : policy.validateResponse = true) :
    answer.status = 200 ↔ ∃ reply, outcome = .ok (some reply) ∧ reply.payload = payload := by
  constructor
  · intro hStatus
    cases h with
    | echoed hKept => exact ⟨_, rfl, hKept hValidated⟩
    | altered | missing | late | failed => cases hStatus
  · rintro ⟨reply, rfl, hSame⟩
    cases h with
    | echoed => rfl
    | altered _ hAltered => exact absurd hSame hAltered

theorem of_kept (h : Reports client policy payload sent (.ok (some reply)) answer left)
    (hKept : policy.validateResponse = true → reply.payload = payload) :
    answer = EchoRequest.echoed (Utf8.decodeLossy reply.payload) ∧ left = sent := by
  cases h with
  | echoed => exact ⟨rfl, rfl⟩
  | altered hValidated hAltered => exact absurd (hKept hValidated) hAltered

theorem of_altered (h : Reports client policy payload sent (.ok (some reply)) answer left)
    (hValidated : policy.validateResponse = true) (hAltered : reply.payload ≠ payload) :
    answer = .ofReason 500 "Echo response is invalid" ∧ left = client.abort reply.connection sent := by
  cases h with
  | echoed hKept => exact absurd (hKept hValidated) hAltered
  | altered => exact ⟨rfl, rfl⟩

theorem status_eq_408_iff (h : Reports client policy payload sent outcome answer left) :
    answer.status = 408 ↔ ∃ cause, outcome = .error cause ∧ cause.root.IsWait := by
  constructor
  · intro hStatus
    cases h with
    | late hWait => exact ⟨_, rfl, hWait⟩
    | echoed | altered | missing | failed => cases hStatus
  · rintro ⟨cause, rfl, hWait⟩
    cases h with
    | late => rfl
    | failed hOther => exact absurd hWait hOther

theorem of_status_408 (h : Reports client policy payload sent outcome answer left)
    (hStatus : answer.status = 408) : answer = .ofReason 408 "Echo response timeout" ∧ left = sent := by
  cases h with
  | late => exact ⟨rfl, rfl⟩
  | echoed | altered | missing | failed => cases hStatus

theorem of_no_reply (h : Reports client policy payload sent outcome answer left)
    (hNone : outcome = .ok none ∨ ∃ cause, outcome = .error cause ∧ ¬cause.root.IsWait) :
    answer = .ofReason 500 internalErrorReason ∧ left = sent := by
  rcases hNone with rfl | ⟨cause, rfl, hOther⟩
  · cases h with
    | missing => exact ⟨rfl, rfl⟩
  · cases h with
    | late hWait => exact absurd hWait hOther
    | failed => exact ⟨rfl, rfl⟩

end Reports

theorem handle_of_logic (hActive : h.active = true) (hLogic : h.logic = logic client policy)
    (request : Request) (state : σ) :
    h.handle request state =
      (h.settle (answer client policy (h.context request) state).1,
        (answer client policy (h.context request) state).2) := by
  simp [Handler.handle, hActive, hLogic, logic, Logic.ofFunction]

theorem answer_of_one {context : Context σ} {text : String} (hText : context.arguments = [text]) (state : σ) :
    answer client policy context state =
      report client policy (Utf8.encode text)
        (client.send (Utf8.encode text) policy.responseTimeout state).2
        (client.send (Utf8.encode text) policy.responseTimeout state).1 := by
  unfold answer
  rw [hText]

theorem answer_of_others {context : Context σ} (hOthers : context.arguments.length ≠ 1) (state : σ) :
    answer client policy context state = (.failure (argumentsRefused context.binding), state) := by
  unfold answer
  split
  case h_1 text hText => exact absurd (congrArg List.length hText) hOthers
  case h_2 => rfl

end EchoRequest

open EchoRequest in
/-- A request without exactly one argument is refused, and nothing is sent for it. For the text of one argument
its bytes are sent once, and they are not none. Where replies are validated, the text is the answer exactly
if its bytes come back. Other bytes are refused, and the connection that has brought them is closed, and no
other. A failure is reported as a timeout exactly if it is one at its root. Other failures, and a reply that is
missing, are answered without detail. -/
theorem echo_outcomes_find_their_answers {ι : Type → Type} [BindingIndex ι] (x : Exchange ι σ)
    {request : Request} {h : Handler σ} {client : EchoClient σ} {policy : EchoPolicy}
    (hOpen : x.dispatcher.active = true) (hFound : x.dispatcher.find? request = some h)
    (hActive : h.active = true) (hLogic : h.logic = logic client policy) :
    let answer := (x.dispatch request).1
    let left := (x.dispatch request).2.state
    (answer.status = 400 ↔ (h.arguments request).length ≠ 1) ∧
    (answer.status = 400 → answer = refusal h.binding ∧ left = x.state) ∧
    (∀ log, client.Records log → log left = log x.state ++ payloads (h.arguments request)) ∧
    ∀ text, h.arguments request = [text] →
      let payload := Utf8.encode text
      let outcome := (client.send payload policy.responseTimeout x.state).1
      let sent := (client.send payload policy.responseTimeout x.state).2
      (payload ≠ [] ∧ Utf8.decodeLossy payload = text) ∧
      (policy.validateResponse = true →
        (answer.status = 200 ↔ ∃ reply, outcome = .ok (some reply) ∧ reply.payload = payload) ∧
        (answer.status = 200 → answer = echoed text ∧ left = sent) ∧
        ∀ reply, outcome = .ok (some reply) → reply.payload ≠ payload →
          answer = .ofReason 500 "Echo response is invalid" ∧
          left = client.abort reply.connection sent ∧
          ∀ get set, client.IsPooled get set → ∀ i, (get sent).HasArrived i reply →
            get left = (get sent).without reply.connection ∧
            ∃ connection, (get left).connections[i]? = some connection ∧
              connection.id = reply.connection ∧ connection.handle.closed = true ∧
              connection.isActive = false) ∧
      (policy.validateResponse = false → ∀ reply, outcome = .ok (some reply) →
        answer = echoed (Utf8.decodeLossy reply.payload) ∧ left = sent) ∧
      (answer.status = 408 ↔ ∃ cause, outcome = .error cause ∧ cause.root.IsWait) ∧
      (answer.status = 408 → answer = .ofReason 408 "Echo response timeout" ∧ left = sent) ∧
      (outcome = .ok none ∨ (∃ cause, outcome = .error cause ∧ ¬cause.root.IsWait) →
        answer = .ofReason 500 internalErrorReason ∧ left = sent) := by
  obtain ⟨hAnswer, hLeft⟩ := Exchange.dispatch_of_find? hOpen hFound
  rw [handle_of_logic hActive hLogic] at hAnswer hLeft
  have hRefused (hOthers : (h.arguments request).length ≠ 1) :
      (x.dispatch request).1 = refusal h.binding ∧ (x.dispatch request).2.state = x.state := by
    rw [hAnswer, hLeft, answer_of_others hOthers]
    exact ⟨rfl, rfl⟩
  have hReports (text : String) (hText : h.arguments request = [text]) :
      Reports client policy (Utf8.encode text)
        (client.send (Utf8.encode text) policy.responseTimeout x.state).2
        (client.send (Utf8.encode text) policy.responseTimeout x.state).1
        (x.dispatch request).1 (x.dispatch request).2.state := by
    rw [hAnswer, hLeft, answer_of_one hText]
    exact reports_report ..
  intro answer left
  have hStatus : answer.status = 400 ↔ (h.arguments request).length ≠ 1 := by
    constructor
    · intro hStatus hOne
      obtain ⟨text, hText⟩ := List.length_eq_one_iff.mp hOne
      exact (hReports text hText).status_ne_400 hStatus
    · intro hOthers
      exact congrArg Rest.Response.status (hRefused hOthers).1
  have hLog (log : σ → List Bytes) (hRecords : client.Records log) :
      log left = log x.state ++ payloads (h.arguments request) := by
    by_cases hOne : (h.arguments request).length = 1
    · obtain ⟨text, hText⟩ := List.length_eq_one_iff.mp hOne
      rw [(hReports text hText).log_eq hRecords, hRecords.send, hText]
      rfl
    · have hKept : left = x.state := (hRefused hOne).2
      rw [hKept, payloads_of_others hOne, List.append_nil]
  refine ⟨hStatus, fun h400 => hRefused (hStatus.mp h400), hLog, fun text hText => ?_⟩
  intro payload outcome sent
  have hReports : Reports client policy payload sent outcome answer left := hReports text hText
  have hSome : text ≠ "" := Request.ne_empty_of_mem_nodesAfter (hText ▸ List.mem_singleton_self text)
  refine ⟨⟨Utf8.encode_ne_nil hSome, Utf8.decodeLossy_encode text⟩, fun hValidated => ⟨?_, ?_, ?_⟩, ?_, ?_, ?_,
    ?_⟩
  · exact hReports.status_eq_200_iff hValidated
  · intro h200
    obtain ⟨reply, hOutcome, hSame⟩ := (hReports.status_eq_200_iff hValidated).mp h200
    obtain ⟨hEchoed, hSent⟩ := (hOutcome ▸ hReports).of_kept fun _ => hSame
    rw [hSame, Utf8.decodeLossy_encode] at hEchoed
    exact ⟨hEchoed, hSent⟩
  · intro reply hOutcome hAltered
    obtain ⟨hInvalid, hAborted⟩ := (hOutcome ▸ hReports).of_altered hValidated hAltered
    refine ⟨hInvalid, hAborted, fun get set hPooled i hArrived => ?_⟩
    obtain ⟨hWithout, hClosed⟩ := hArrived.destroy
    have hKept : get left = (get sent).without reply.connection := by
      rw [hAborted, hPooled.abort, hPooled.get_set, hWithout]
    exact ⟨hKept, hKept ▸ hClosed⟩
  · intro hTrusted reply hOutcome
    exact (hOutcome ▸ hReports).of_kept fun hValidated => by simp [hTrusted] at hValidated
  · exact hReports.status_eq_408_iff
  · exact hReports.of_status_408
  · exact hReports.of_no_reply

namespace Sample

/-- A message goes out, and the peer gives every byte back increased by one. -/
def exchanged (payload : Bytes) (timeout : Duration) : List PooledClient.Event :=
  [.send (.new payload timeout), .proceed 0, .proceed 0, .connected 0 (.ok ()), .proceed 0, .proceed 0,
    .on 0 .turn, .on 0 (.written payload.length), .on 0 .flushed, .on 0 (.received (payload.map (· + 1)))]

/-- Beside the connections there is a record of what has been sent. -/
def altering : EchoClient (PooledClient Echo.Codec × List Bytes) where
  send payload timeout state :=
    let c := state.1.run (exchanged payload timeout ++ [.on 0 .turn])
    (settled (c.outcome? (.pending 0 0)), c, state.2 ++ [payload])
  abort connection state := (state.1.destroy (connection.number - 1), state.2)

theorem isPooled_altering : altering.IsPooled Prod.fst fun c state => (c, state.2) :=
  ⟨fun _ _ => rfl, fun _ _ => rfl⟩

theorem records_altering : altering.Records Prod.snd := ⟨fun _ _ _ => rfl, fun _ _ => rfl⟩

/-- A client that cannot connect in time, from behind that many pools. -/
def hidden (n : Nat) : EchoClient Unit where
  send _ _ _ := (.error ((Client.Error.ofConnect (.timeout "echo" ⟨5⟩)).throughPools n), ())
  abort _ _ := ()

def policy : EchoPolicy := { responseTimeout := ⟨1000⟩, validateResponse := true }

def request : Request := { EchoRequest.binding with segments := EchoRequest.binding.segments ++ [{
  raw := "%C3%A9"
  text := "é"
  raw_ne_nil := by decide
  raw_chars := List.all_eq_true.mp (by decide +kernel)
  decodes := by decide +kernel }] }

structure Serves (d : Dispatcher Bindings σ) (client : EchoClient σ) : Prop where
  active : d.active = true
  found : d.find? request = some ((EchoRequest.handler client policy).joined ⟨"control", id⟩)

theorem exists_serves (client : EchoClient σ) : ∃ d, Serves d client := by
  obtain ⟨d, hNew⟩ : ∃ d : Dispatcher Bindings σ,
      Dispatcher.new ⟨"control", id⟩ [EchoRequest.handler client policy] = .ok d := ⟨_, rfl⟩
  have hLongest : IsLongestPrefix [EchoRequest.binding] request EchoRequest.binding :=
    ⟨by decide, by decide, by decide⟩
  obtain ⟨-, hFound⟩ := Dispatcher.find?_of_isLongestPrefix hNew (List.mem_singleton.mpr rfl) hLongest
  exact ⟨d, (Dispatcher.new_eq_ok hNew).2.1, hFound⟩

def untouched : PooledClient Echo.Codec × List Bytes := (.ofSettings {} .echo .empty, [])

def reply : Client.Response := { payload := [0xc4, 0xaa], connection := ⟨1⟩ }

theorem outcome_altering :
    (altering.send (Utf8.encode "é") policy.responseTimeout untouched).1 = .ok (some reply) := by
  decide +kernel

theorem hasArrived_altering :
    (altering.send (Utf8.encode "é") policy.responseTimeout untouched).2.1.HasArrived 0 reply :=
  ⟨{}, .echo, .empty, exchanged (Utf8.encode "é") policy.responseTimeout, [], 0,
    ⟨by decide +kernel, by decide +kernel⟩, rfl⟩

end Sample

/-- A reply that has been altered, and a connect that took too long, seen through any number of pools. -/
theorem echo_outcomes_find_their_answers_altered :
    (∃ d, Sample.Serves d Sample.altering ∧
      let result := (Exchange.fresh d Sample.untouched).dispatch Sample.request
      result.1 = .ofReason 500 "Echo response is invalid" ∧ result.2.state.2 = [[0xc3, 0xa9]] ∧
        ∃ connection, result.2.state.1.connections[0]? = some connection ∧ connection.id = ⟨1⟩ ∧
          connection.isActive = false) ∧
    ∀ n, ∃ d, Sample.Serves d (Sample.hidden n) ∧
      ((Exchange.fresh d ()).dispatch Sample.request).1 = .ofReason 408 "Echo response timeout" := by
  constructor
  · obtain ⟨d, hServes⟩ := Sample.exists_serves Sample.altering
    obtain ⟨-, -, hLog, hOne⟩ := echo_outcomes_find_their_answers (Exchange.fresh d Sample.untouched)
      hServes.active hServes.found rfl rfl
    obtain ⟨-, hValidated, -⟩ := hOne "é" rfl
    obtain ⟨-, -, hAltered⟩ := hValidated rfl
    obtain ⟨hAnswer, -, hCloses⟩ := hAltered Sample.reply Sample.outcome_altering (by decide +kernel)
    obtain ⟨-, connection, hConnection, hId, -, hInactive⟩ :=
      hCloses Prod.fst (fun c state => (c, state.2)) Sample.isPooled_altering 0 Sample.hasArrived_altering
    have hBytes : Utf8.encode "é" = [0xc3, 0xa9] := by decide +kernel
    have hSent := hLog Prod.snd Sample.records_altering
    exact ⟨d, hServes, hAnswer, hBytes ▸ hSent, connection, hConnection, hId, hInactive⟩
  · intro n
    obtain ⟨d, hServes⟩ := Sample.exists_serves (Sample.hidden n)
    obtain ⟨-, -, -, hOne⟩ := echo_outcomes_find_their_answers (Exchange.fresh d ())
      hServes.active hServes.found rfl rfl
    obtain ⟨-, -, -, hLate, hReason, -⟩ := hOne "é" rfl
    have hWait : ((Client.Error.ofConnect (.timeout "echo" ⟨5⟩)).throughPools n).root.IsWait := by
      rw [Client.Error.root_throughPools, Client.Error.isWait_ofConnect_iff]
      rfl
    exact ⟨d, hServes, (hReason (hLate.mpr ⟨_, rfl, hWait⟩)).1⟩

end Switchyard.Control
