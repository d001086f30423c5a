import Switchyard.Proofs.Rest.Crashes
import Switchyard.Proofs.Rest.Recording
import Switchyard.Proofs.Rest.Routing

/-! # The life of a handler

A handler is active until it is shut down, by itself or with its dispatcher, and its hook runs when that
happens and never again. It keeps its binding, so its requests are turned down from then on and nobody
else's are.
-/
namespace Switchyard.Rest
set_option autoImplicit false

namespace Dispatcher
variable {σ : Type} {server : ServerHandle σ} {handlers : List (Handler σ)}
  {d later : Dispatcher Bindings σ} {position : Nat} {handler : Handler σ} {request : Request}

theorem isActiveAt_of_new (hNew : new server handlers = .ok d)
    (hHandler : handlers[position]? = some handler) : d.isActiveAt position = true := by
  obtain ⟨-, -, -, hHandlers⟩ := new_eq_ok hNew
  obtain ⟨hActive, hJoined⟩ := hHandlers position handler hHandler
  rw [isActiveAt, hJoined]
  exact hActive

namespace IsLater

theorem getElem?_of_new (hLater : IsLater d later) (hNew : new server handlers = .ok d)
    (hHandler : handlers[position]? = some handler) :
    later.handlers[position]? =
      some { handler.joined server with active := later.isActiveAt position } := by
  obtain ⟨-, -, -, hHandlers⟩ := new_eq_ok hNew
  exact hLater.getElem?_eq (hHandlers position handler hHandler).2

theorem isActiveAt_of_closed (hLater : IsLater d later) (hNew : new server handlers = .ok d)
    (hClosed : later.active = false) (hHandler : handlers[position]? = some handler) :
    later.isActiveAt position = false := by
  obtain ⟨hNodup, -, hIndex, -⟩ := new_eq_ok hNew
  exact hLater.closed hClosed position (hIndex ▸ mem_values hNodup hHandler)

/-- A request is routed as it was at first, whoever has been shut down since. -/
theorem position_of_new (hLater : IsLater d later) (hNew : new server handlers = .ok d)
    (hHandler : handlers[position]? = some handler)
    (hLongest : IsLongestPrefix (handlers.map (·.binding)) request handler.binding) :
    BindingIndex.find? later.index request = some position := by
  obtain ⟨hNodup, -, hIndex, -⟩ := new_eq_ok hNew
  rw [hLater.index_eq, hIndex, find?_calls hNodup hHandler hLongest]

theorem find?_of_new (hLater : IsLater d later) (hNew : new server handlers = .ok d)
    (hHandler : handlers[position]? = some handler)
    (hLongest : IsLongestPrefix (handlers.map (·.binding)) request handler.binding) :
    later.find? request = some { handler.joined server with active := later.isActiveAt position } := by
  rw [find?, hLater.position_of_new hNew hHandler hLongest]
  exact hLater.getElem?_of_new hNew hHandler

/-- A handler that has been shut down neither answers nor leaves its requests to anybody else. -/
theorem refuses_of_new (hLater : IsLater d later) (hNew : new server handlers = .ok d)
    (hHandler : handlers[position]? = some handler)
    (hLongest : IsLongestPrefix (handlers.map (·.binding)) request handler.binding)
    (hOpen : later.active = true) (hInactive : later.isActiveAt position = false) :
    later.Refuses request handler.inactive ∧ later.recorded.Refuses request handler.inactive := by
  have hRefuses := refuses_of_find? hOpen (hLater.find?_of_new hNew hHandler hLongest) hInactive
  refine ⟨hRefuses, hRefuses.recorded ?_⟩
  simp [asks, hLater.position_of_new hNew hHandler hLongest, hInactive]

theorem asks_of_new (hLater : IsLater d later) (hNew : new server handlers = .ok d)
    (hHandler : handlers[position]? = some handler)
    (hLongest : IsLongestPrefix (handlers.map (·.binding)) request handler.binding)
    (hOpen : later.active = true) (hActive : later.isActiveAt position = true) :
    later.asks request = [.request position request] := by
  simp [asks, hLater.position_of_new hNew hHandler hLongest, hOpen, hActive]

theorem receive_of_new (hLater : IsLater d later) (hNew : new server handlers = .ok d)
    (hHandler : handlers[position]? = some handler)
    (hLongest : IsLongestPrefix (handlers.map (·.binding)) request handler.binding)
    (hOpen : later.active = true) (hActive : later.isActiveAt position = true) :
    later.receive request = (handler.joined server).receive request := by
  obtain ⟨-, -, -, hHandlers⟩ := new_eq_ok hNew
  have hFlag : (handler.joined server).active = true := (hHandlers position handler hHandler).1
  have hFound := hLater.find?_of_new hNew hHandler hLongest
  rw [hActive, ← hFlag] at hFound
  funext state
  simp [receive, hOpen, hFound]

theorem dispatch_of_new (hLater : IsLater d later) (hNew : new server handlers = .ok d)
    (hHandler : handlers[position]? = some handler)
    (hLongest : IsLongestPrefix (handlers.map (·.binding)) request handler.binding)
    (hOpen : later.active = true) (hActive : later.isActiveAt position = true) :
    later.dispatch request = (handler.joined server).handle request := by
  funext state
  rw [dispatch_eq, Handler.handle_eq, hLater.receive_of_new hNew hHandler hLongest hOpen hActive]

end IsLater
end Dispatcher

/-- Whatever is asked of a dispatcher that has been built, and whatever its handlers do or crash in, each
hook has run at most once, and once exactly if its handler is inactive, as all of them are once the
dispatcher has been shut down. A request whose handler is inactive is turned down, and so is every request
to a dispatcher that has been shut down, and no logic is asked. A request whose handler is active is
answered as by the dispatcher as it was built, and its logic is asked once. Without the crashes everything
would be the same. -/
theorem handlers_are_shut_down_once {σ : Type} {server : ServerHandle σ} {handlers : List (Handler σ)}
    {d : Dispatcher Bindings σ} (hNew : Dispatcher.new server handlers = .ok d) (state : σ)
    (calls : List ServiceCall) :
    let x := (Service.start d state).run calls
    (∃ log, (Service.start d.recorded (state, [])).run calls = x.recorded log ∧
      ∀ position handler, handlers[position]? = some handler →
        x.dispatcher.handlers[position]? =
          some { handler.joined server with active := x.dispatcher.isActiveAt position } ∧
        log.count (.hook position) ≤ 1 ∧
        (log.count (.hook position) = 1 ↔ x.dispatcher.isActiveAt position = false) ∧
        (.shutdown ∈ calls → x.dispatcher.isActiveAt position = false)) ∧
    (.shutdown ∉ calls → ∀ position handler request, handlers[position]? = some handler →
      IsLongestPrefix (handlers.map (·.binding)) request handler.binding →
        (x.dispatcher.isActiveAt position = false →
          x.dispatcher.Refuses request handler.inactive ∧
          x.dispatcher.recorded.Refuses request handler.inactive) ∧
        (x.dispatcher.isActiveAt position = true →
          x.dispatcher.receive request = d.receive request ∧
          x.dispatcher.dispatch request = d.dispatch request ∧
          d.dispatch request = (handler.joined server).handle request ∧
          ∀ state log, (x.dispatcher.recorded.receive request (state, log)).2.2 =
            log ++ [.request position request])) ∧
    (.shutdown ∈ calls → ∀ request,
      x.dispatcher.Refuses request d.inactive ∧ x.dispatcher.recorded.Refuses request d.inactive) ∧
    (Service.start d.calm state).run calls = x.calm ∧
    ∀ h ∈ x.calm.dispatcher.handlers, h.logic.IsCalm := by
  intro x
  have hActive : d.active = true := (Dispatcher.new_eq_ok hNew).2.1
  have hFirst : d.IsLater d := .refl hActive
  have hLater : d.IsLater x.dispatcher := Service.isLater_run (x := .start d state) hFirst calls
  have hClosed : x.dispatcher.active = false ↔ .shutdown ∈ calls := by
    rw [Service.active_run]
    simp [Service.start, hActive]
  refine ⟨?_, ?_, ?_, ?_, ?_⟩
  · obtain ⟨log, hRun, hAccounts⟩ :=
      Service.run_recorded (x := .start d state) (Dispatcher.Accounts.start d) calls
    refine ⟨log, hRun, fun position handler hHandler => ?_⟩
    have hCount := hAccounts position (Dispatcher.isActiveAt_of_new hNew hHandler)
    refine ⟨hLater.getElem?_of_new hNew hHandler, ?_, ?_, fun hShut => ?_⟩
    · rw [hCount]
      split <;> decide
    · rw [hCount]
      cases x.dispatcher.isActiveAt position <;> decide
    · exact hLater.isActiveAt_of_closed hNew (hClosed.mpr hShut) hHandler
  · intro hNever position handler request hHandler hLongest
    have hOpen : x.dispatcher.active = true := eq_true_of_ne_false (hClosed.not.mpr hNever)
    refine ⟨hLater.refuses_of_new hNew hHandler hLongest hOpen, fun hAt => ?_⟩
    have hAtFirst : d.isActiveAt position = true := Dispatcher.isActiveAt_of_new hNew hHandler
    have hReceive := hFirst.receive_of_new hNew hHandler hLongest hActive hAtFirst
    have hDispatch := hFirst.dispatch_of_new hNew hHandler hLongest hActive hAtFirst
    refine ⟨(hLater.receive_of_new hNew hHandler hLongest hOpen hAt).trans hReceive.symm,
      (hLater.dispatch_of_new hNew hHandler hLongest hOpen hAt).trans hDispatch.symm, hDispatch,
      fun state log => ?_⟩
    rw [Dispatcher.receive_recorded, hLater.asks_of_new hNew hHandler hLongest hOpen hAt]
  · intro hShut request
    have hInactive : d.inactive = x.dispatcher.inactive := by
      rw [Dispatcher.inactive, Dispatcher.inactive, hLater.server_eq]
    have hRefuses := Dispatcher.refuses_of_inactive (hClosed.mpr hShut) request
    rw [hInactive]
    exact ⟨hRefuses, hRefuses.recorded (Dispatcher.asks_of_inactive (hClosed.mpr hShut) request)⟩
  · exact (Service.start d state).run_calm calls
  · intro h hMem
    obtain ⟨other, -, rfl⟩ := List.mem_map.mp hMem
    exact other.isCalm_calmLogic

namespace Sample

/-- Logic that counts what it is asked and crashes in all of it. -/
def crashing : Logic Nat where
  receive _ _ n := (.crash ⟨some "broken"⟩, n + 1)
  onShutdown n := (some ⟨none⟩, n + 1)

def crashingHandlers : List (Handler Nat) := bindings.map fun binding => .new binding crashing

theorem exists_crashing_dispatcher :
    ∃ d : Dispatcher Bindings Nat, Dispatcher.new server crashingHandlers = .ok d :=
  exists_ok_of_toBool (by decide +kernel)

/-- One of the handlers is shut down after a request to it, and the others are left alone. -/
def calls : List ServiceCall := [.dispatch request, .await 0, .shutdownFound request]

theorem isActiveAt_calls {d : Dispatcher Bindings Nat}
    (hNew : Dispatcher.new server crashingHandlers = .ok d) (position : Nat) :
    ((Service.start d 0).run calls).dispatcher.isActiveAt position =
      (d.isActiveAt position && decide (position ≠ 2)) := by
  have hFirst : d.IsLater d := .refl (Dispatcher.new_eq_ok hNew).2.1
  have hHandler : crashingHandlers[2]? = some (.new ⟨.get, [slashed]⟩ crashing) := rfl
  have hFound := hFirst.position_of_new hNew hHandler isLongestPrefix
  simp [Service.run, Service.start, calls, Service.step, hFound, Dispatcher.isActiveAt_shutdownAt]

end Sample

theorem handlers_are_shut_down_once_crashing :
    ∃ d : Dispatcher Bindings Nat, Dispatcher.new Sample.server Sample.crashingHandlers = .ok d ∧
      let x := (Service.start d 0).run Sample.calls
      (∃ log, (Service.start d.recorded (0, [])).run Sample.calls = x.recorded log ∧
        log.count (.hook 2) = 1 ∧ log.count (.hook 0) = 0) ∧
      x.dispatcher.dispatch Sample.request 5 = (.error (.inactive "handler GET /a/b/"), 5) ∧
      x.dispatcher.dispatch ⟨.get, [Sample.b]⟩ 5 =
        (.error (.handling "handler for GET / panicked: broken"), 6) ∧
      ∃ log, (Service.start d.recorded (0, [])).run (Sample.calls ++ [.shutdown, .shutdown]) =
          ((Service.start d 0).run (Sample.calls ++ [.shutdown, .shutdown])).recorded log ∧
        log.count (.hook 2) = 1 ∧ log.count (.hook 0) = 1 := by
  obtain ⟨d, hNew⟩ := Sample.exists_crashing_dispatcher
  have hShut : ((Service.start d 0).run Sample.calls).dispatcher.isActiveAt 2 = false := by
    simp [Sample.isActiveAt_calls hNew]
  have hRoot : Sample.crashingHandlers[0]? = some (.new ⟨.get, []⟩ Sample.crashing) := rfl
  have hSlashed : Sample.crashingHandlers[2]? = some (.new ⟨.get, [Sample.slashed]⟩ Sample.crashing) := rfl
  have hOpen : ((Service.start d 0).run Sample.calls).dispatcher.isActiveAt 0 = true := by
    simp [Sample.isActiveAt_calls hNew, Dispatcher.isActiveAt_of_new hNew hRoot]
  obtain ⟨⟨log, hRun, hHooks⟩, hRouted, -⟩ := handlers_are_shut_down_once hNew 0 Sample.calls
  have hRouted := hRouted (by decide)
  obtain ⟨⟨last, hLast, hAll⟩, -⟩ :=
    handlers_are_shut_down_once hNew 0 (Sample.calls ++ [.shutdown, .shutdown])
  have hRootLongest : IsLongestPrefix (Sample.crashingHandlers.map (·.binding)) ⟨.get, [Sample.b]⟩ ⟨.get, []⟩ :=
    ⟨by decide, by decide, by decide⟩
  refine ⟨d, hNew, ⟨log, hRun, ?_, ?_⟩, ?_, ?_, last, hLast, ?_, ?_⟩
  · exact ((hHooks 2 _ hSlashed).2.2.1).mpr hShut
  · obtain ⟨-, hOnce, hIff, -⟩ := hHooks 0 _ hRoot
    have hNever : log.count (.hook 0) ≠ 1 := fun hRan => by simp [hIff.mp hRan] at hOpen
    omega
  · have hText : (Handler.new ⟨.get, [Sample.slashed]⟩ Sample.crashing).inactive =
        .inactive "handler GET /a/b/" := by decide
    have hRefuses := ((hRouted 2 _ _ hSlashed Sample.isLongestPrefix).1 hShut).1
    exact hText ▸ hRefuses.dispatch 5
  · obtain ⟨-, hNow, hFirst, -⟩ := (hRouted 0 _ _ hRoot hRootLongest).2 hOpen
    rw [hNow, hFirst]
    rfl
  · obtain ⟨-, -, hIff, hDown⟩ := hAll 2 _ hSlashed
    exact hIff.mpr (hDown (by simp))
  · obtain ⟨-, -, hIff, hDown⟩ := hAll 0 _ hRoot
    exact hIff.mpr (hDown (by simp))

end Switchyard.Rest
