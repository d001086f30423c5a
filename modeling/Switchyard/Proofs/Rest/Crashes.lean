import Switchyard.Proofs.Rest.Service

/-! # Crashes stay inside

Put a failure in place of each crash of a handler's logic, the one that the crash is answered with, and let
each hook that crashes end where it would have crashed. A dispatcher does not tell the difference.
-/
namespace Switchyard.Rest
set_option autoImplicit false
variable {σ : Type}

/-- Logic that never crashes, neither at once nor later nor at its shutdown. -/
structure Logic.IsCalm (logic : Logic σ) : Prop where
  receive (request : Request) (context : Context σ) (state : σ) :
    ∃ finish, (logic.receive request context state).1 = .work finish ∧
      ∀ later crash, (finish later).1 ≠ .crash crash
  onShutdown (state : σ) : (logic.onShutdown state).1 = none

namespace Handler

def calmEnding (h : Handler σ) : Ending σ → Ending σ
  | .crash cause => .failure (h.crashed cause)
  | ending => ending

def calmReception (h : Handler σ) : Reception σ → Reception σ
  | .crash cause => .work fun state => (.failure (h.crashed cause), state)
  | .work finish => .work fun state => (h.calmEnding (finish state).1, (finish state).2)

def calmLogic (h : Handler σ) : Logic σ where
  receive request context state :=
    let (reception, state) := h.logic.receive request context state
    (h.calmReception reception, state)
  onShutdown state := (none, (h.logic.onShutdown state).2)

def calm (h : Handler σ) : Handler σ := { h with logic := h.calmLogic }

theorem exists_work_of_calmReception (h : Handler σ) (reception : Reception σ) :
    ∃ finish, h.calmReception reception = .work finish ∧ ∀ state crash, (finish state).1 ≠ .crash crash := by
  cases reception with
  | crash cause => exact ⟨_, rfl, fun _ _ => nofun⟩
  | work finish =>
    refine ⟨_, rfl, fun state crash => ?_⟩
    cases (finish state).1 <;> simp [calmEnding]

theorem isCalm_calmLogic (h : Handler σ) : h.calmLogic.IsCalm where
  receive request context state :=
    h.exists_work_of_calmReception (h.logic.receive request context state).1
  onShutdown _ := rfl

theorem settle_calm (h : Handler σ) (ending : Ending σ) :
    h.calm.settle (h.calmEnding ending) = h.settle ending := by
  cases ending <;> rfl

theorem reply_calm (h : Handler σ) (finish : σ → Ending σ × σ) :
    h.calm.reply (fun state => (h.calmEnding (finish state).1, (finish state).2)) = h.reply finish :=
  funext fun state => congrArg (·, (finish state).2) (h.settle_calm (finish state).1)

theorem receive_calm (h : Handler σ) (request : Request) (state : σ) :
    h.calm.receive request state = h.receive request state := by
  have hLogic : h.calm.logic.receive request (h.calm.context request) state =
      (h.calmReception (h.logic.receive request (h.context request) state).1,
        (h.logic.receive request (h.context request) state).2) := rfl
  have hFlag : h.calm.active = h.active := rfl
  unfold receive
  rw [hLogic, hFlag]
  split
  case isTrue => rfl
  case isFalse =>
    rcases h.logic.receive request (h.context request) state with ⟨cause | finish, later⟩
    · rfl
    · simp only [calmReception, reply_calm]

theorem shutdown_calm (h : Handler σ) (state : σ) :
    h.calm.shutdown state = ((h.shutdown state).1.calm, (h.shutdown state).2) := by
  have hFlag : h.calm.active = h.active := rfl
  unfold shutdown
  rw [hFlag]
  split <;> rfl

end Handler

namespace Dispatcher
variable {ι : Type → Type}

/-- The same dispatcher with handlers that never crash. -/
def calm (d : Dispatcher ι σ) : Dispatcher ι σ := { d with handlers := d.handlers.map Handler.calm }

theorem getElem?_calm (d : Dispatcher ι σ) (position : Nat) :
    d.calm.handlers[position]? = d.handlers[position]?.map Handler.calm := List.getElem?_map ..

theorem shutdownAt_calm (d : Dispatcher ι σ) (position : Nat) (state : σ) :
    d.calm.shutdownAt position state =
      ((d.shutdownAt position state).1.calm, (d.shutdownAt position state).2) := by
  unfold shutdownAt
  rw [getElem?_calm]
  cases d.handlers[position]? with
  | none => rfl
  | some h => simp [h.shutdown_calm, calm, List.map_set]

theorem shutdownEach_calm (d : Dispatcher ι σ) (state : σ) (positions : List Nat) :
    d.calm.shutdownEach state positions =
      ((d.shutdownEach state positions).1.calm, (d.shutdownEach state positions).2) := by
  induction positions generalizing d state with
  | nil => rfl
  | cons position rest ih =>
    simp only [shutdownEach, shutdownAt_calm]
    exact ih (d.shutdownAt position state).1 (d.shutdownAt position state).2

variable [BindingIndex ι]

theorem receive_calm (d : Dispatcher ι σ) (request : Request) (state : σ) :
    d.calm.receive request state = d.receive request state := by
  have hFlag : d.calm.active = d.active := rfl
  have hFound : d.calm.find? request = (d.find? request).map Handler.calm := by
    simp only [find?, getElem?_calm, Option.map_bind]
    rfl
  unfold receive
  rw [hFlag, hFound]
  cases d.find? request with
  | none => rfl
  | some h => simp only [Option.map_some, h.receive_calm]; rfl

theorem shutdown_calm (d : Dispatcher ι σ) (state : σ) :
    d.calm.shutdown state = ((d.shutdown state).1.calm, (d.shutdown state).2) := by
  have hFlag : d.calm.active = d.active := rfl
  rw [shutdown_eq, shutdown_eq, hFlag]
  split
  case isTrue => exact shutdownEach_calm { d with active := false } state _
  case isFalse => rfl

end Dispatcher

namespace Service
variable {ι : Type → Type}

def calm (x : Service ι σ) : Service ι σ := { x with dispatcher := x.dispatcher.calm }

variable [BindingIndex ι]

theorem step_calm (x : Service ι σ) (call : ServiceCall) : x.calm.step call = (x.step call).calm := by
  cases call with
  | dispatch request => simp [step, calm, Dispatcher.receive_calm]
  | await number =>
    simp only [step, calm]
    rcases x.promises[number]? with _ | reply | answer <;> rfl
  | shutdownFound request =>
    have hIndex : x.calm.dispatcher.index = x.dispatcher.index := rfl
    simp only [step, hIndex]
    cases BindingIndex.find? x.dispatcher.index request with
    | none => rfl
    | some position => simp [calm, Dispatcher.shutdownAt_calm]
  | shutdown => simp [step, calm, Dispatcher.shutdown_calm]

theorem run_calm (x : Service ι σ) (calls : List ServiceCall) : x.calm.run calls = (x.run calls).calm := by
  induction calls generalizing x with
  | nil => rfl
  | cons call calls ih => exact (congrArg (·.run calls) (x.step_calm call)).trans (ih (x.step call))

end Service
end Switchyard.Rest
