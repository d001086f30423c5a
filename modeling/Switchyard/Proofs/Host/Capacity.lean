import Switchyard.Host.Running
import Switchyard.Proofs.Config.SlotCounts
import Switchyard.Proofs.Rest.Grammar

/-! # Breakdowns

A server breaks down when it asks for more slots than there can be, and for nothing else. Settings may ask for
more, since the rules for them leave the greatest number of slots open. A host whose settings ask for no more
may fail to start, but it does not break down.
-/
namespace Switchyard
open Config Rest
set_option autoImplicit false

namespace Net

theorem Slots.fit_iff {count : Nat} : Slots.fit count = true ↔ count ≤ Slots.limit := decide_eq_true_iff

theorem Server.start_fst {s : Server} (hIdle : s.state = .idle) (hUnasked : s.stopRequested = false)
    (binder : Binder) : (s.start binder).1 = Server.bind binder s.bindAddress s.maxConnections := by
  simp only [Server.start, Server.beginStart, hIdle, hUnasked]
  cases hBound : Server.bind binder s.bindAddress s.maxConnections with
  | error cause => simp [Server.finishStart, hBound]
  | ok address => simp [Server.finishStart, hBound]

theorem Server.bind_eq_breakdown_iff {binder : Binder} {text : String} {slots : Nat} {address : SocketAddress}
    (hAddress : SocketAddress.parse? text = some address) :
    Server.bind binder text slots = .error .breakdown ↔
      Slots.limit < slots ∧ ∃ bound, binder address = .ok bound := by
  simp only [Server.bind, hAddress]
  cases binder address with
  | error cause => simp
  | ok bound =>
    by_cases hFit : slots ≤ Slots.limit
    · simp [Slots.fit, hFit]
    · simp [Slots.fit, hFit, Nat.lt_of_not_le hFit]

/-- Whatever has no address to bind does not come to ask for slots. -/
theorem Server.bind_ne_breakdown (binder : Binder) (text : String) {slots : Nat} (hLe : slots ≤ Slots.limit) :
    Server.bind binder text slots ≠ .error .breakdown := by
  cases hAddress : SocketAddress.parse? text with
  | none => simp [Server.bind, hAddress]
  | some address => exact fun h => absurd ((bind_eq_breakdown_iff hAddress).mp h).1 (Nat.not_lt.mpr hLe)

end Net

namespace Rest
variable {ι : Type → Type} [BindingIndex ι] {σ : Type} {s : ControlSettings} {stop : σ → σ}
  {handlers : List (Handler σ)}

theorem Server.ofSettings_eq_breakdown_iff :
    (Server.ofSettings s stop handlers : Except SetupError (Server ι σ)) = .error .breakdown ↔
      Net.Slots.limit < s.postResponseWorkers ∧
        ∃ d : Dispatcher ι σ, Dispatcher.new ⟨s.name, stop⟩ handlers = .ok d := by
  have hFit : PostResponse.fit s.postResponseWorkers = false ↔ Net.Slots.limit < s.postResponseWorkers := by
    rw [PostResponse.fit, Bool.eq_false_iff, ne_eq, Net.Slots.fit_iff, Net.Slots.limit]
    omega
  unfold Server.ofSettings Server.new
  cases (Dispatcher.new ⟨s.name, stop⟩ handlers : Except Error (Dispatcher ι σ)) with
  | error cause => simp
  | ok d =>
    rw [← hFit]
    cases PostResponse.fit s.postResponseWorkers <;> simp

theorem Server.server_of_ofSettings {control : Server ι σ} (h : Server.ofSettings s stop handlers = .ok control) :
    control.server = .ofSettings s.name s.listener := by
  unfold Server.ofSettings Server.new at h
  split at h
  · cases h
  · split at h <;> cases h
    rfl

end Rest

namespace Config.Settings
variable {s : Settings}

/-- Whatever the handlers are and whatever the host answers, the control server can be set up and the listeners
be bound, or there is an error that says why not. -/
structure NeverBreakDown (s : Settings) : Prop where
  setup : ∀ (ι : Type → Type) [BindingIndex ι] (σ : Type) (stop : σ → σ) (handlers : List (Handler σ)),
    (Rest.Server.ofSettings s.control stop handlers : Except SetupError (Rest.Server ι σ)) ≠ .error .breakdown
  bind : ∀ listener ∈ s.listeners, ∀ binder,
    Net.Server.bind binder listener.bindAddress listener.maxConnections ≠ .error .breakdown

theorem NeverBreakDown.of_fits (hFits : ∀ count ∈ s.slotCounts.toList, count ≤ Net.Slots.limit) :
    s.NeverBreakDown where
  setup _ _ _ _ _ hSetup := by
    have hWorkers := hFits s.slotCounts.workers (by simp [SlotCounts.toList])
    exact absurd (Rest.Server.ofSettings_eq_breakdown_iff.mp hSetup).1 (Nat.not_lt.mpr hWorkers)
  bind _ hListener _ := Net.Server.bind_ne_breakdown _ _ (hFits _ (maxConnections_mem_slotCounts hListener))

theorem NeverBreakDown.workers_le (h : s.NeverBreakDown) : s.control.postResponseWorkers ≤ Net.Slots.limit := by
  by_contra hOver
  have hNone : ∃ d : Dispatcher Bindings Unit, Dispatcher.new ⟨s.control.name, id⟩ [] = .ok d := ⟨_, rfl⟩
  exact h.setup _ _ _ _ (Rest.Server.ofSettings_eq_breakdown_iff.mpr ⟨Nat.lt_of_not_le hOver, hNone⟩)

/-- On a host that lets every bind through, a listener whose address can be read comes to ask for its slots. -/
theorem NeverBreakDown.maxConnections_le (h : s.NeverBreakDown) (hAccepted : s.isAccepted = true)
    {listener : ListenerSettings} (hListener : listener ∈ s.listeners) :
    listener.maxConnections ≤ Net.Slots.limit := by
  obtain ⟨address, hAddress⟩ := exists_address_of_accepted hAccepted hListener
  by_contra hOver
  exact h.bind listener hListener .ok
    ((Net.Server.bind_eq_breakdown_iff hAddress).mpr ⟨Nat.lt_of_not_le hOver, address, rfl⟩)

theorem neverBreakDown_iff (hAccepted : s.isAccepted = true) :
    s.NeverBreakDown ↔ ∀ count ∈ s.slotCounts.toList, count ≤ Net.Slots.limit := by
  refine ⟨fun h => ?_, .of_fits⟩
  have hListeners : ∀ listener ∈ s.listeners, listener.maxConnections ≤ Net.Slots.limit :=
    fun _ => h.maxConnections_le hAccepted
  simp only [listeners, List.forall_mem_cons] at hListeners
  obtain ⟨hControl, hEcho, hProxy, -⟩ := hListeners
  simp only [slotCounts, SlotCounts.toList, List.forall_mem_cons]
  exact ⟨hControl, hEcho, hProxy, h.workers_le, List.forall_mem_nil _⟩

end Config.Settings

namespace Host
variable {s : Settings} {binder : Net.Binder} {network : Net.Network} {application : Application}

theorem Failure.exitCode_server {cause : Net.ServerError} (h : cause ≠ .breakdown) :
    (Failure.start (.server cause)).exitCode = 1 := by
  cases cause with
  | breakdown => exact absurd rfl h
  | bind | alreadyStarted | stopped => rfl

theorem Failure.exitCode_setup {cause : SetupError} (h : cause ≠ .breakdown) :
    (Failure.start (.setup cause)).exitCode = 1 := by
  cases cause with
  | breakdown => exact absurd rfl h
  | handlers => rfl

section Safe
variable (hSafe : s.NeverBreakDown)
include hSafe

theorem start_ne_breakdown {listener : ListenerSettings} (hListener : listener ∈ s.listeners) (name : String)
    (binder : Net.Binder) : ((Net.Server.ofSettings name listener).start binder).1 ≠ .error .breakdown := by
  rw [Net.Server.start_fst rfl rfl]
  exact hSafe.bind listener hListener binder

theorem startComponent_ne_breakdown : (Component.ofSettings s application).start binder ≠ .error .breakdown := by
  have hServer : ∀ name, ∀ listener ∈ s.listeners,
      (Component.server (.ofSettings name listener)).start binder ≠ .error .breakdown := by
    intro name listener hListener hStart
    have hNe := start_ne_breakdown hSafe hListener name binder
    simp only [Component.start] at hStart
    split at hStart
    · cases hStart
    · rename_i hEq
      exact hNe (hEq ▸ congrArg Except.error (Except.error.inj hStart))
  cases application with
  | echo => exact hServer _ _ (by simp [Settings.listeners])
  | proxy => exact hServer _ _ (by simp [Settings.listeners])
  | initiator =>
    intro hStart
    cases hStart

/-- A host that never breaks down fails to start like any other program. -/
theorem Running.exitCode_of_start {cause : StartError}
    (h : Running.start s binder network application = .error cause) : (Failure.start cause).exitCode = 1 := by
  simp only [Running.start, bind, Except.bind] at h
  split at h
  · rename_i hSetup
    obtain ⟨fault, hFault, rfl⟩ := mapError_eq_error_iff.mp hSetup
    cases h
    exact Failure.exitCode_setup fun hBreakdown => hSafe.setup _ _ _ _ (hBreakdown ▸ hFault)
  · rename_i control hControl
    split at h
    · rename_i hComponent
      obtain ⟨fault, hFault, rfl⟩ := mapError_eq_error_iff.mp hComponent
      cases h
      exact Failure.exitCode_server fun hBreakdown => startComponent_ne_breakdown hSafe (hBreakdown ▸ hFault)
    · split at h
      · rename_i hStart
        cases h
        have hServer := Rest.Server.server_of_ofSettings (mapError_eq_ok_iff.mp hControl)
        have hListener : s.control.listener ∈ s.listeners := List.mem_cons_self
        have hNe := hServer ▸ start_ne_breakdown hSafe hListener s.control.name
        exact Failure.exitCode_server fun hBreakdown =>
          hNe _ ((congrArg Prod.fst hStart).trans (congrArg Except.error hBreakdown))
      · cases h

end Safe

theorem Running.exitCode_of_launch {invocation : Invocation} {content : Option Bytes} {failure : Failure}
    (hSafe : ∀ s, Settings.load content = .ok s → s.NeverBreakDown)
    (h : Running.launch invocation content binder network = .error failure) : failure.exitCode = 1 := by
  have hStart : ∀ s : Settings, s.NeverBreakDown → ∀ failure, (Running.start s (besideMetrics s binder) network
      invocation.application).mapError Failure.start = .error failure → failure.exitCode = 1 := by
    intro s hSafe failure hFailure
    obtain ⟨cause, hCause, rfl⟩ := mapError_eq_error_iff.mp hFailure
    exact Running.exitCode_of_start hSafe hCause
  simp only [Running.launch, bind, Except.bind] at h
  split at h
  · cases hLoad : Settings.load content with
    | error cause =>
      rw [hLoad] at h
      cases h
      rfl
    | ok s =>
      rw [hLoad] at h
      exact hStart s (hSafe s hLoad) failure h
  · exact hStart {} (.of_fits (by decide)) failure h

/-- Settings read from a text may ask for any numbers of slots from one to the greatest integer. Setting the
control server up breaks down exactly if its handlers can be registered and there are too many workers, and
binding a listener exactly if its address can be had and it takes too many connections. So settings never break
anything down exactly if they ask for no more slots than there can be. -/
theorem breakdowns_ask_for_too_many_slots (n : SlotCounts) :
    ((∃ text s, Settings.parse text = .ok s ∧ s.slotCounts = n) ↔
      ∀ count ∈ n.toList, 0 < count ∧ count < 2 ^ 63) ∧
    ∀ (text : String) (s : Settings), Settings.parse text = .ok s → s.slotCounts = n →
      (∀ (ι : Type → Type) [BindingIndex ι] (σ : Type) (stop : σ → σ) (handlers : List (Handler σ)),
        (Rest.Server.ofSettings s.control stop handlers : Except SetupError (Rest.Server ι σ)) =
            .error .breakdown ↔
          Net.Slots.limit < n.workers ∧
            ∃ d : Dispatcher ι σ, Dispatcher.new ⟨s.control.name, stop⟩ handlers = .ok d) ∧
      (∀ listener ∈ s.listeners, ∃ address, Net.SocketAddress.parse? listener.bindAddress = some address ∧
        ∀ binder, Net.Server.bind binder listener.bindAddress listener.maxConnections = .error .breakdown ↔
          Net.Slots.limit < listener.maxConnections ∧ ∃ bound, binder address = .ok bound) ∧
      (s.NeverBreakDown ↔ ∀ count ∈ n.toList, count ≤ Net.Slots.limit) := by
  refine ⟨exists_parse_iff n, ?_⟩
  rintro text s hParse rfl
  obtain ⟨-, -, -, hAccepted⟩ := Settings.parse_eq_ok_iff.mp hParse
  refine ⟨?_, fun listener hListener => ?_, Settings.neverBreakDown_iff hAccepted⟩
  · exact fun _ _ _ _ _ => Rest.Server.ofSettings_eq_breakdown_iff
  · obtain ⟨address, hAddress⟩ := Settings.exists_address_of_accepted hAccepted hListener
    exact ⟨address, hAddress, fun _ => Net.Server.bind_eq_breakdown_iff hAddress⟩

namespace Sample

/-- The control server takes all connections that there can be and has one worker too many. The other listeners
take one connection too many, and as many as can be written. -/
def demanding : String :=
  "[control]\nlistener.max_connections = 2305843009213693951\npost_response_workers = 2305843009213693952\n"
    ++ "[echo.listener]\nmax_connections = 2305843009213693952\n"
    ++ "[proxy.listener]\nmax_connections = 0x7fff_ffff_ffff_ffff\n"

def demanded : SlotCounts := ⟨2305843009213693951, 2305843009213693952, 9223372036854775807, 2305843009213693952⟩

theorem parse_demanding : Settings.parse demanding = .ok demanded.settings := by decide +kernel

theorem parse?_address : Net.SocketAddress.parse? "127.0.0.1:0" = some (.v4 [127, 0, 0, 1] 0) := by decide +kernel

end Sample

theorem breakdowns_ask_for_too_many_slots_demanding :
    let s := Sample.demanded.settings
    Settings.parse Sample.demanding = .ok s ∧
    (Rest.Server.ofSettings s.control id [] : Except SetupError (Rest.Server Bindings Unit)) =
      .error .breakdown ∧
    (∀ binder, Net.Server.bind binder s.control.listener.bindAddress s.control.listener.maxConnections ≠
      .error .breakdown) ∧
    Net.Server.bind .isolated s.proxy.listener.bindAddress s.proxy.listener.maxConnections =
      .error .breakdown ∧
    ¬s.NeverBreakDown := by
  intro s
  obtain ⟨hSetup, hBind, hNever⟩ :=
    (breakdowns_ask_for_too_many_slots Sample.demanded).2 _ s Sample.parse_demanding rfl
  obtain ⟨_, -, hControl⟩ := hBind s.control.listener (by simp [Settings.listeners])
  obtain ⟨address, hAddress, hProxy⟩ := hBind s.proxy.listener (by simp [Settings.listeners])
  cases Sample.parse?_address.symm.trans hAddress
  refine ⟨Sample.parse_demanding, ?_, fun binder hBreakdown => ?_, ?_, fun hHolds => ?_⟩
  · exact (hSetup Bindings Unit id []).mpr ⟨by decide, _, rfl⟩
  · exact absurd ((hControl binder).mp hBreakdown).1 (by decide)
  · exact (hProxy .isolated).mpr ⟨by decide, _, rfl⟩
  · exact absurd (hNever.mp hHolds Sample.demanded.workers (by simp [SlotCounts.toList])) (by decide)

/-- Settings are accepted with which the control server breaks down when it is set up, and both other listeners
when they are bound. -/
theorem accepted_settings_break_down :
    let s := Sample.demanded.settings
    Settings.parse Sample.demanding = .ok s ∧
    (Rest.Server.ofSettings s.control id [] : Except SetupError (Rest.Server Bindings Unit)) =
      .error .breakdown ∧
    (∀ listener ∈ [s.echo.listener, s.proxy.listener],
      Net.Server.bind .isolated listener.bindAddress listener.maxConnections = .error .breakdown) ∧
    ¬∀ (text : String) (s : Settings), Settings.parse text = .ok s → s.NeverBreakDown := by
  intro s
  have hSetup : (Rest.Server.ofSettings s.control id [] : Except SetupError (Rest.Server Bindings Unit)) =
      .error .breakdown := Rest.Server.ofSettings_eq_breakdown_iff.mpr ⟨by decide, _, rfl⟩
  refine ⟨Sample.parse_demanding, hSetup, fun listener hListener => ?_, fun hClaim => ?_⟩
  · simp only [List.mem_cons, List.not_mem_nil, or_false] at hListener
    rcases hListener with rfl | rfl
    · exact (Net.Server.bind_eq_breakdown_iff Sample.parse?_address).mpr ⟨by decide, _, rfl⟩
    · exact (Net.Server.bind_eq_breakdown_iff Sample.parse?_address).mpr ⟨by decide, _, rfl⟩
  · exact (hClaim _ _ Sample.parse_demanding).setup Bindings Unit id [] hSetup

end Host
end Switchyard
