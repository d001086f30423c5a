import Switchyard.Proofs.Rest.Service

/-! # What handlers are asked

The logic of a handler can be made to keep a log of what it is asked beside the state of its application.
It sees and does what it did without, so a dispatcher of such handlers works as before, and the log tells
what has been run on the way.
-/
namespace Switchyard.Rest
set_option autoImplicit false
variable {σ : Type}

/-- What the logic of the handler at a position is asked to do. -/
inductive Asked where
  | request (position : Nat) (request : Request)
  | hook (position : Nat)
deriving DecidableEq

/-! ## Logic that keeps a log -/

namespace ServerHandle

def recorded (server : ServerHandle σ) : ServerHandle (σ × List Asked) :=
  ⟨server.name, fun (state, log) => (server.stop state, log)⟩

def unrecorded (server : ServerHandle (σ × List Asked)) : ServerHandle σ :=
  ⟨server.name, fun state => (server.stop (state, [])).1⟩

theorem unrecorded_recorded (server : ServerHandle σ) : server.recorded.unrecorded = server := rfl

end ServerHandle

def Context.unrecorded (context : Context (σ × List Asked)) : Context σ :=
  { context with server? := context.server?.map .unrecorded }

def Outcome.recorded (outcome : Outcome σ) : Outcome (σ × List Asked) :=
  { outcome with afterwards := outcome.afterwards.map fun action (state, log) => (action state, log) }

def Ending.recorded : Ending σ → Ending (σ × List Asked)
  | .result outcome => .result outcome.recorded
  | .failure cause => .failure cause
  | .crash cause => .crash cause

def Reception.recorded : Reception σ → Reception (σ × List Asked)
  | .crash cause => .crash cause
  | .work finish => .work fun (state, log) => ((finish state).1.recorded, (finish state).2, log)

def Logic.recorded (logic : Logic σ) (position : Nat) : Logic (σ × List Asked) where
  receive request context := fun (state, log) =>
    let (reception, state) := logic.receive request context.unrecorded state
    (reception.recorded, state, log ++ [.request position request])
  onShutdown := fun (state, log) =>
    let (crash?, state) := logic.onShutdown state
    (crash?, state, log ++ [.hook position])

def Reply.recorded (reply : Reply σ) : Reply (σ × List Asked) :=
  fun (state, log) => ((reply state).1.map Outcome.recorded, (reply state).2, log)

theorem Reply.recorded_refusal (cause : Error) :
    (refusal cause : Reply σ).recorded = refusal cause := rfl

namespace Handler

def recorded (h : Handler σ) (position : Nat) : Handler (σ × List Asked) :=
  { h with logic := h.logic.recorded position, server? := h.server?.map .recorded }

theorem unrecorded_context (h : Handler σ) (position : Nat) (request : Request) :
    ((h.recorded position).context request).unrecorded = h.context request := by
  have hServer : (h.server?.map ServerHandle.recorded).map ServerHandle.unrecorded = h.server? := by
    simp [Function.comp_def, ServerHandle.unrecorded_recorded]
  simp only [context, Context.unrecorded, recorded, arguments, hServer]

theorem settle_recorded (h : Handler σ) (position : Nat) (ending : Ending σ) :
    (h.recorded position).settle ending.recorded = (h.settle ending).map Outcome.recorded := by
  cases ending <;> rfl

theorem reply_recorded (h : Handler σ) (position : Nat) (finish : σ → Ending σ × σ) :
    (h.recorded position).reply (fun (state, log) => ((finish state).1.recorded, (finish state).2, log)) =
      (h.reply finish).recorded := by
  funext (state, log)
  exact congrArg (·, (finish state).2, log) (h.settle_recorded position (finish state).1)

/-- An active handler asks its logic, and an inactive one does not. -/
theorem receive_recorded (h : Handler σ) (position : Nat) (request : Request) (state : σ)
    (log : List Asked) :
    (h.recorded position).receive request (state, log) =
      ((h.receive request state).1.recorded, (h.receive request state).2,
        log ++ if h.active then [.request position request] else []) := by
  have hLogic : (h.recorded position).logic.receive request
      ((h.recorded position).context request) (state, log) =
        ((h.logic.receive request (h.context request) state).1.recorded,
          (h.logic.receive request (h.context request) state).2,
          log ++ [.request position request]) := by
    rw [← h.unrecorded_context position request]
    rfl
  have hFlag : (h.recorded position).active = h.active := rfl
  unfold receive
  rw [hLogic, hFlag]
  cases h.active with
  | false => simp only [List.append_nil, Bool.false_eq_true, Bool.not_false, if_true, if_false]; rfl
  | true =>
    rcases h.logic.receive request (h.context request) state with ⟨_ | finish, later⟩
    · rfl
    · simp only [Reception.recorded, Bool.not_true, Bool.false_eq_true, if_false, if_true, reply_recorded]

theorem shutdown_recorded (h : Handler σ) (position : Nat) (state : σ) (log : List Asked) :
    (h.recorded position).shutdown (state, log) =
      ((h.shutdown state).1.recorded position, (h.shutdown state).2,
        log ++ if h.active then [.hook position] else []) := by
  unfold shutdown
  cases hActive : h.active <;> simp [recorded, hActive, Logic.recorded]

end Handler

namespace Dispatcher
variable {ι : Type → Type}

def recorded (d : Dispatcher ι σ) : Dispatcher ι (σ × List Asked) :=
  { d with server := d.server.recorded, handlers := d.handlers.mapIdx fun position h => h.recorded position }

theorem getElem?_recorded (d : Dispatcher ι σ) (position : Nat) :
    d.recorded.handlers[position]? = d.handlers[position]?.map (·.recorded position) := by
  simp [recorded]

theorem set_recorded (d : Dispatcher ι σ) (position : Nat) (h : Handler σ) :
    d.recorded.handlers.set position (h.recorded position) =
      (d.handlers.set position h).mapIdx fun position h => h.recorded position := by
  simp [recorded, List.mapIdx_set]

theorem shutdownAt_recorded (d : Dispatcher ι σ) (position : Nat) (state : σ) (log : List Asked) :
    d.recorded.shutdownAt position (state, log) =
      ((d.shutdownAt position state).1.recorded, (d.shutdownAt position state).2,
        log ++ if d.isActiveAt position then [.hook position] else []) := by
  unfold shutdownAt isActiveAt
  rw [getElem?_recorded]
  cases hFound : d.handlers[position]? with
  | none => simp
  | some h =>
    simp only [Option.map_some, h.shutdown_recorded, set_recorded]
    rfl

/-- The hooks of handlers that were active in `d` are in the log once if they are not any more, and not at
all if they still are. -/
def Accounts (d later : Dispatcher ι σ) (log : List Asked) : Prop :=
  ∀ position, d.isActiveAt position = true →
    log.count (.hook position) = if later.isActiveAt position then 0 else 1

theorem Accounts.start (d : Dispatcher ι σ) : Accounts d d [] := by
  intro position hActive
  simp [hActive]

theorem Accounts.of_count_eq {d later later' : Dispatcher ι σ} {log log' : List Asked}
    (h : Accounts d later log) (hFlags : later'.isActiveAt = later.isActiveAt)
    (hLog : ∀ position, log'.count (.hook position) = log.count (.hook position)) :
    Accounts d later' log' := by
  intro position hActive
  rw [hFlags, hLog]
  exact h position hActive

theorem Accounts.shutdownAt {d later : Dispatcher ι σ} {log : List Asked} (h : Accounts d later log)
    (position : Nat) (state : σ) :
    Accounts d (later.shutdownAt position state).1
      (log ++ if later.isActiveAt position then [.hook position] else []) := by
  intro other hActive
  rw [isActiveAt_shutdownAt, List.count_append, h other hActive]
  by_cases hEq : other = position
  · subst hEq
    cases later.isActiveAt other <;> simp
  · have hNe : Asked.hook position ≠ .hook other := by simpa using Ne.symm hEq
    have hNone : (if later.isActiveAt position then [Asked.hook position] else []).count (.hook other) = 0 := by
      split <;> simp [hNe]
    simp [hEq, hNone]

theorem shutdownEach_recorded {d later : Dispatcher ι σ} {log : List Asked} (h : Accounts d later log)
    (state : σ) (positions : List Nat) :
    ∃ log', later.recorded.shutdownEach (state, log) positions =
      ((later.shutdownEach state positions).1.recorded, (later.shutdownEach state positions).2, log') ∧
      Accounts d (later.shutdownEach state positions).1 log' := by
  -- A position that comes twice finds its handler inactive the second time, so its hook is logged once.
  induction positions generalizing later log state with
  | nil => exact ⟨log, rfl, h⟩
  | cons position rest ih =>
    simp only [shutdownEach, shutdownAt_recorded]
    exact ih (h.shutdownAt position state) (later.shutdownAt position state).2

variable [BindingIndex ι]

/-- The logic that a request is handed to, if any. -/
def asks (d : Dispatcher ι σ) (request : Request) : List Asked :=
  match BindingIndex.find? d.index request with
  | some position => if d.active && d.isActiveAt position then [.request position request] else []
  | none => []

theorem receive_recorded (d : Dispatcher ι σ) (request : Request) (state : σ) (log : List Asked) :
    d.recorded.receive request (state, log) =
      ((d.receive request state).1.recorded, (d.receive request state).2, log ++ d.asks request) := by
  have hFlag : d.recorded.active = d.active := rfl
  have hIndex : d.recorded.index = d.index := rfl
  unfold receive asks find?
  rw [hFlag, hIndex]
  cases hActive : d.active with
  | false => cases BindingIndex.find? d.index request <;> simp <;> rfl
  | true =>
    cases BindingIndex.find? d.index request with
    | none => simp; rfl
    | some position =>
      have hHandler := d.getElem?_recorded position
      cases hFound : d.handlers[position]? with
      | none =>
        rw [hFound] at hHandler
        simp [isActiveAt, hFound, hHandler, Reply.recorded_refusal]
      | some h =>
        rw [hFound] at hHandler
        simpa [isActiveAt, hFound, hHandler] using h.receive_recorded position request state log

theorem asks_of_inactive {d : Dispatcher ι σ} (hInactive : d.active = false) (request : Request) :
    d.asks request = [] := by
  unfold asks
  split <;> simp [hInactive]

theorem Refuses.recorded {d : Dispatcher ι σ} {request : Request} {cause : Error}
    (h : d.Refuses request cause) (hAsks : d.asks request = []) : d.recorded.Refuses request cause :=
  refuses_of_receive fun (state, log) => by
    rw [receive_recorded, h.receive, hAsks, List.append_nil]
    rfl

theorem asks_count_hook (d : Dispatcher ι σ) (request : Request) (position : Nat) :
    (d.asks request).count (.hook position) = 0 := by
  unfold asks
  split
  case h_1 => split <;> simp
  case h_2 => rfl

theorem shutdown_recorded {d later : Dispatcher ι σ} {log : List Asked} (h : Accounts d later log)
    (state : σ) :
    ∃ log', later.recorded.shutdown (state, log) =
      ((later.shutdown state).1.recorded, (later.shutdown state).2, log') ∧
      Accounts d (later.shutdown state).1 log' := by
  have hFlag : later.recorded.active = later.active := rfl
  have hDown : Accounts d { later with active := false } log := h.of_count_eq rfl fun _ => rfl
  rw [shutdown_eq, shutdown_eq, hFlag]
  split
  case isTrue => exact shutdownEach_recorded hDown state _
  case isFalse => exact ⟨log, rfl, h⟩

end Dispatcher

def Promise.recorded : Promise σ → Promise (σ × List Asked)
  | .pending reply => .pending reply.recorded
  | .kept answer => .kept (answer.map Outcome.recorded)

namespace Service
variable {ι : Type → Type}

/-- The same service with handlers that keep a log, which has come to this one. -/
def recorded (x : Service ι σ) (log : List Asked) : Service ι (σ × List Asked) :=
  { dispatcher := x.dispatcher.recorded
    state := (x.state, log)
    promises := x.promises.map Promise.recorded }

variable [BindingIndex ι] {d : Dispatcher ι σ} {x : Service ι σ} {log : List Asked}

theorem step_recorded (h : d.Accounts x.dispatcher log) (call : ServiceCall) :
    ∃ log', (x.recorded log).step call = (x.step call).recorded log' ∧
      d.Accounts (x.step call).dispatcher log' := by
  cases call with
  | dispatch request =>
    refine ⟨log ++ x.dispatcher.asks request, ?_, h.of_count_eq rfl fun position => ?_⟩
    · simp [step, recorded, Dispatcher.receive_recorded, Promise.recorded]
    · rw [List.count_append, Dispatcher.asks_count_hook, Nat.add_zero]
  | await number =>
    have hPromise : (x.recorded log).promises[number]? = x.promises[number]?.map Promise.recorded := by
      simp [recorded]
    simp only [step, hPromise]
    rcases x.promises[number]? with _ | reply | answer
    · exact ⟨log, rfl, h⟩
    · -- The logic has been asked when the promise was given.
      refine ⟨log, ?_, h⟩
      simp [recorded, Promise.recorded, Reply.recorded, List.map_set]
    · exact ⟨log, rfl, h⟩
  | shutdownFound request =>
    have hIndex : (x.recorded log).dispatcher.index = x.dispatcher.index := rfl
    simp only [step, hIndex]
    cases BindingIndex.find? x.dispatcher.index request with
    | none => exact ⟨log, rfl, h⟩
    | some position =>
      refine ⟨_, ?_, h.shutdownAt position x.state⟩
      simp only [recorded, Dispatcher.shutdownAt_recorded]
  | shutdown =>
    obtain ⟨log', hShut, hAccounts⟩ := Dispatcher.shutdown_recorded h x.state
    exact ⟨log', by simp [step, recorded, hShut], hAccounts⟩

theorem run_recorded (h : d.Accounts x.dispatcher log) (calls : List ServiceCall) :
    ∃ log', (x.recorded log).run calls = (x.run calls).recorded log' ∧
      d.Accounts (x.run calls).dispatcher log' := by
  induction calls generalizing x log with
  | nil => exact ⟨log, rfl, h⟩
  | cons call calls ih =>
    obtain ⟨later, hStep, hAccounts⟩ := step_recorded h call
    obtain ⟨last, hRun, hLast⟩ := ih hAccounts
    rw [← hStep] at hRun
    exact ⟨last, hRun, hLast⟩

end Service
end Switchyard.Rest
