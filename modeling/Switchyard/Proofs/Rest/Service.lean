import Mathlib.Data.List.Basic
import Switchyard.Rest.Dispatcher

/-! # A dispatcher in use

Requests are handed over and answered later, if anyone waits, while handlers that were found and the
dispatcher itself are shut down in between.
-/
namespace Switchyard.Rest
set_option autoImplicit false
variable {σ : Type}

/-- What is left to do for a request, once its answer is waited for. -/
def Reply (σ : Type) : Type := σ → Except Error (Outcome σ) × σ

def Reply.refusal (cause : Error) : Reply σ := fun state => (.error cause, state)

namespace Handler

def reply (h : Handler σ) (finish : σ → Ending σ × σ) : Reply σ :=
  fun state => (h.settle (finish state).1, (finish state).2)

/-- Hands over a request, whose answer can be waited for at any time later. -/
def receive (h : Handler σ) (request : Request) (state : σ) : Reply σ × σ :=
  if !h.active then (.refusal h.inactive, state)
  else
    match h.logic.receive request (h.context request) state with
    | (.crash cause, state) => (.refusal (h.crashed cause), state)
    | (.work finish, state) => (h.reply finish, state)

theorem handle_eq (h : Handler σ) (request : Request) (state : σ) :
    h.handle request state = (h.receive request state).1 (h.receive request state).2 := by
  unfold handle receive
  split
  case isTrue => rfl
  case isFalse =>
    rcases h.logic.receive request (h.context request) state with ⟨_ | _, _⟩ <;> rfl

end Handler

namespace Dispatcher
variable {ι : Type → Type} [BindingIndex ι]

def receive (d : Dispatcher ι σ) (request : Request) (state : σ) : Reply σ × σ :=
  if !d.active then (.refusal d.inactive, state)
  else
    match d.find? request with
    | some handler => handler.receive request state
    | none => (.refusal (.bindingNotFound request.display), state)

/-- To dispatch a request is to hand it over and to wait for its answer at once. -/
theorem dispatch_eq (d : Dispatcher ι σ) (request : Request) (state : σ) :
    d.dispatch request state = (d.receive request state).1 (d.receive request state).2 := by
  unfold dispatch receive
  split
  case isTrue => rfl
  case isFalse =>
    cases d.find? request with
    | none => rfl
    | some handler => exact handler.handle_eq request state

end Dispatcher

/-! ## Flags -/

namespace Handler

/-- The handler as it was before any shutdown. -/
def restored (h : Handler σ) : Handler σ := { h with active := true }

def stopped (h : Handler σ) : Handler σ := { h with active := false }

theorem shutdown_fst (h : Handler σ) (state : σ) : (h.shutdown state).1 = h.stopped := by
  unfold shutdown
  split
  case isTrue => rfl
  case isFalse hActive =>
    obtain ⟨binding, logic, server?, active⟩ := h
    cases eq_false_of_ne_true hActive
    rfl

end Handler

namespace Dispatcher
variable {ι : Type → Type}

def isActiveAt (d : Dispatcher ι σ) (position : Nat) : Bool := d.handlers[position]?.any (·.active)

def restored (d : Dispatcher ι σ) : Dispatcher ι σ :=
  { d with handlers := d.handlers.map Handler.restored, active := true }

theorem shutdownAt_fst (d : Dispatcher ι σ) (position : Nat) (state : σ) :
    (d.shutdownAt position state).1 = { d with handlers := d.handlers.modify position Handler.stopped } := by
  unfold shutdownAt
  cases hFound : d.handlers[position]? with
  | none => simp [List.modify_eq_self (List.getElem?_eq_none_iff.mp hFound)]
  | some h =>
    have hModify := List.modify_eq_set_getElem? Handler.stopped position d.handlers
    rw [hFound] at hModify
    rw [hModify]
    simp only [h.shutdown_fst]
    rfl

theorem isActiveAt_shutdownAt (d : Dispatcher ι σ) (position : Nat) (state : σ) (other : Nat) :
    (d.shutdownAt position state).1.isActiveAt other = (d.isActiveAt other && decide (other ≠ position)) := by
  rw [shutdownAt_fst]
  unfold isActiveAt
  rw [List.getElem?_modify]
  cases d.handlers[other]? with
  | none => rfl
  | some h =>
    by_cases hEq : position = other
    · simp [hEq, Handler.stopped]
    · simp [hEq, Ne.symm hEq]

theorem restored_shutdownAt (d : Dispatcher ι σ) (position : Nat) (state : σ) :
    (d.shutdownAt position state).1.restored = d.restored := by
  have hMap : (d.handlers.modify position Handler.stopped).map Handler.restored =
      d.handlers.map Handler.restored := by
    refine List.ext_getElem? fun other => ?_
    rw [List.getElem?_map, List.getElem?_modify, List.getElem?_map]
    cases d.handlers[other]? with
    | none => rfl
    | some h => by_cases hEq : position = other <;> simp [hEq, Handler.restored, Handler.stopped]
  rw [shutdownAt_fst, restored, hMap]
  rfl

theorem active_shutdownAt (d : Dispatcher ι σ) (position : Nat) (state : σ) :
    (d.shutdownAt position state).1.active = d.active := by
  rw [shutdownAt_fst]

/-- Shuts down the handlers at these positions, one after the other. -/
def shutdownEach (d : Dispatcher ι σ) (state : σ) : List Nat → Dispatcher ι σ × σ
  | [] => (d, state)
  | position :: rest => (d.shutdownAt position state).1.shutdownEach (d.shutdownAt position state).2 rest

theorem foldl_shutdownAt (d : Dispatcher ι σ) (state : σ) (positions : List Nat) :
    positions.foldl (fun (d, state) position => d.shutdownAt position state) (d, state) =
      d.shutdownEach state positions := by
  induction positions generalizing d state with
  | nil => rfl
  | cons position rest ih => exact ih _ _

theorem isActiveAt_shutdownEach (d : Dispatcher ι σ) (state : σ) (positions : List Nat) (other : Nat) :
    (d.shutdownEach state positions).1.isActiveAt other =
      (d.isActiveAt other && decide (other ∉ positions)) := by
  induction positions generalizing d state with
  | nil => simp [shutdownEach]
  | cons position rest ih =>
    rw [shutdownEach, ih, isActiveAt_shutdownAt]
    by_cases hEq : other = position <;> simp [hEq]

theorem restored_shutdownEach (d : Dispatcher ι σ) (state : σ) (positions : List Nat) :
    (d.shutdownEach state positions).1.restored = d.restored := by
  induction positions generalizing d state with
  | nil => rfl
  | cons position rest ih => exact (ih _ _).trans (d.restored_shutdownAt position state)

theorem active_shutdownEach (d : Dispatcher ι σ) (state : σ) (positions : List Nat) :
    (d.shutdownEach state positions).1.active = d.active := by
  induction positions generalizing d state with
  | nil => rfl
  | cons position rest ih => exact (ih _ _).trans (d.active_shutdownAt position state)

variable [BindingIndex ι]

theorem shutdown_eq (d : Dispatcher ι σ) (state : σ) : d.shutdown state =
    if d.active then { d with active := false }.shutdownEach state (BindingIndex.values d.index)
    else (d, state) := by
  unfold shutdown
  rw [foldl_shutdownAt]

/-- A request is turned down, at once or whenever its answer is waited for, and nothing is done for it. -/
structure Refuses (d : Dispatcher ι σ) (request : Request) (cause : Error) : Prop where
  receive (state : σ) : d.receive request state = (.refusal cause, state)
  dispatch (state : σ) : d.dispatch request state = (.error cause, state)

theorem refuses_of_receive {d : Dispatcher ι σ} {request : Request} {cause : Error}
    (h : ∀ state, d.receive request state = (.refusal cause, state)) : d.Refuses request cause :=
  ⟨h, fun state => by rw [dispatch_eq, h]; rfl⟩

theorem refuses_of_inactive {d : Dispatcher ι σ} (hInactive : d.active = false) (request : Request) :
    d.Refuses request d.inactive :=
  refuses_of_receive fun state => by simp [Dispatcher.receive, hInactive]

theorem refuses_of_find? {d : Dispatcher ι σ} (hActive : d.active = true) {request : Request}
    {h : Handler σ} (hFound : d.find? request = some h) (hInactive : h.active = false) :
    d.Refuses request h.inactive :=
  refuses_of_receive fun state => by simp [Dispatcher.receive, hActive, hFound, Handler.receive, hInactive]

/-- What has become of a dispatcher since it was built: some flags have been taken down, and all of those
that the index knows if its own has been. -/
structure IsLater (d later : Dispatcher ι σ) : Prop where
  restored : later.restored = d.restored
  closed : later.active = false → ∀ position ∈ BindingIndex.values d.index, later.isActiveAt position = false

namespace IsLater
variable {d later : Dispatcher ι σ}

theorem index_eq (h : IsLater d later) : later.index = d.index :=
  (congrArg Dispatcher.index h.restored :)

theorem server_eq (h : IsLater d later) : later.server = d.server :=
  (congrArg Dispatcher.server h.restored :)

theorem getElem?_eq (h : IsLater d later) {position : Nat} {handler : Handler σ}
    (hHandler : d.handlers[position]? = some handler) :
    later.handlers[position]? = some { handler with active := later.isActiveAt position } := by
  have hRestored := congrArg (·.handlers[position]?) h.restored
  simp only [Dispatcher.restored, List.getElem?_map, hHandler, Option.map_some] at hRestored
  unfold isActiveAt
  cases hLater : later.handlers[position]? with
  | none => simp [hLater] at hRestored
  | some found =>
    obtain ⟨binding, logic, server?, active⟩ := found
    rw [hLater] at hRestored
    cases handler
    cases hRestored
    rfl

theorem refl (hActive : d.active = true) : IsLater d d :=
  ⟨rfl, fun hInactive => by simp [hActive] at hInactive⟩

theorem shutdownAt (h : IsLater d later) (position : Nat) (state : σ) :
    IsLater d (later.shutdownAt position state).1 := by
  refine ⟨(later.restored_shutdownAt position state).trans h.restored, fun hInactive other hOther => ?_⟩
  rw [active_shutdownAt] at hInactive
  rw [isActiveAt_shutdownAt, h.closed hInactive other hOther, Bool.false_and]

theorem shutdown (h : IsLater d later) (state : σ) : IsLater d (later.shutdown state).1 := by
  rw [shutdown_eq]
  split
  case isTrue hActive =>
    refine ⟨(restored_shutdownEach _ _ _).trans h.restored, fun _ position hPosition => ?_⟩
    rw [isActiveAt_shutdownEach, h.index_eq]
    simp [hPosition]
  case isFalse => exact h

end IsLater
end Dispatcher

/-- An answer that somebody may wait for, once. -/
inductive Promise (σ : Type) where
  | pending (reply : Reply σ)
  | kept (answer : Except Error (Outcome σ))

/-- A dispatcher, the state of its application and the answers that it has promised so far. -/
structure Service (ι : Type → Type) (σ : Type) where
  dispatcher : Dispatcher ι σ
  state : σ
  promises : List (Promise σ)

inductive ServiceCall where
  | dispatch (request : Request)
  | await (number : Nat)
  | shutdownFound (request : Request)
  | shutdown
deriving DecidableEq

namespace Service
variable {ι : Type → Type} [BindingIndex ι]

def start (dispatcher : Dispatcher ι σ) (state : σ) : Service ι σ :=
  { dispatcher, state, promises := [] }

def step (x : Service ι σ) : ServiceCall → Service ι σ
  | .dispatch request =>
    let (reply, state) := x.dispatcher.receive request x.state
    { x with state, promises := x.promises ++ [.pending reply] }
  | .await number =>
    match x.promises[number]? with
    | some (.pending reply) =>
      let (answer, state) := reply x.state
      { x with state, promises := x.promises.set number (.kept answer) }
    | _ => x
  | .shutdownFound request =>
    match BindingIndex.find? x.dispatcher.index request with
    | some position =>
      let (dispatcher, state) := x.dispatcher.shutdownAt position x.state
      { x with dispatcher, state }
    | none => x
  | .shutdown =>
    let (dispatcher, state) := x.dispatcher.shutdown x.state
    { x with dispatcher, state }

def run (x : Service ι σ) (calls : List ServiceCall) : Service ι σ := calls.foldl step x

/-- What a call can do to the dispatcher. -/
theorem dispatcher_step (x : Service ι σ) (call : ServiceCall) :
    call ≠ .shutdown ∧ (x.step call).dispatcher = x.dispatcher ∨
    call ≠ .shutdown ∧ (∃ position, (x.step call).dispatcher = (x.dispatcher.shutdownAt position x.state).1) ∨
    call = .shutdown ∧ (x.step call).dispatcher = (x.dispatcher.shutdown x.state).1 := by
  cases call with
  | dispatch request => exact .inl ⟨nofun, rfl⟩
  | await number =>
    refine .inl ⟨nofun, ?_⟩
    simp only [step]
    split <;> rfl
  | shutdownFound request =>
    cases hFound : BindingIndex.find? x.dispatcher.index request with
    | none => exact .inl ⟨nofun, by simp [step, hFound]⟩
    | some position => exact .inr (.inl ⟨nofun, position, by simp [step, hFound]⟩)
  | shutdown => exact .inr (.inr ⟨rfl, rfl⟩)

theorem isLater_step {d : Dispatcher ι σ} {x : Service ι σ} (h : d.IsLater x.dispatcher)
    (call : ServiceCall) : d.IsLater (x.step call).dispatcher := by
  rcases x.dispatcher_step call with ⟨-, hStep⟩ | ⟨-, position, hStep⟩ | ⟨-, hStep⟩ <;> rw [hStep]
  · exact h
  · exact h.shutdownAt position x.state
  · exact h.shutdown x.state

theorem isLater_run {d : Dispatcher ι σ} {x : Service ι σ} (h : d.IsLater x.dispatcher)
    (calls : List ServiceCall) : d.IsLater (x.run calls).dispatcher := by
  induction calls generalizing x with
  | nil => exact h
  | cons call calls ih => exact ih (isLater_step h call)

theorem active_step (x : Service ι σ) (call : ServiceCall) :
    (x.step call).dispatcher.active = false ↔ x.dispatcher.active = false ∨ call = .shutdown := by
  rcases x.dispatcher_step call with ⟨hOther, hStep⟩ | ⟨hOther, position, hStep⟩ | ⟨hShut, hStep⟩ <;>
    rw [hStep]
  · simp [hOther]
  · simp [hOther, Dispatcher.active_shutdownAt]
  · rw [Dispatcher.shutdown_eq]
    split
    case isTrue => simp [hShut, Dispatcher.active_shutdownEach]
    case isFalse hInactive => simp [hInactive]

theorem active_run (x : Service ι σ) (calls : List ServiceCall) :
    (x.run calls).dispatcher.active = false ↔ x.dispatcher.active = false ∨ .shutdown ∈ calls := by
  induction calls generalizing x with
  | nil => simp [run]
  | cons call calls ih =>
    rw [List.mem_cons, ← or_assoc, eq_comm (a := ServiceCall.shutdown), ← active_step]
    exact ih (x.step call)

end Service

end Switchyard.Rest
