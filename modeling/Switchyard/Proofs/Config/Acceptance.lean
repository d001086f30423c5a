import Switchyard.Config.Load

/-! # Which settings are accepted

The rules that are checked make up a list, and the problems of some settings are those of the rules that
they break, in the order of the list. The rules that settings should keep ask for more in two places: the
proxy and its back end should have different addresses, however these are written, and there should be some
time to drain in.
-/
namespace Switchyard.Config
set_option autoImplicit false

/-- Something that is asked of the fields of settings. -/
inductive Rule where
  | address (field text : String)
  | positive (field : String) (value : Nat)
  | writtenApart (field text other : String)

namespace Rule

def holds : Rule → Bool
  | address _ text => (Net.SocketAddress.parse? text).isSome
  | positive _ value => 0 < value
  | writtenApart _ text other => other != text

def problem : Rule → Problem
  | address field text => ⟨field, s!"'{text}' is not a socket address"⟩
  | positive field _ => ⟨field, "must be greater than zero"⟩
  | writtenApart field _ _ => ⟨field, "must differ from the proxy listen address"⟩

def report (rule : Rule) : List Problem := require rule.holds rule.problem.field rule.problem.message

def ofListener (field : String) (listener : ListenerSettings) : List Rule :=
  [address (field ++ ".bind_address") listener.bindAddress,
    positive (field ++ ".max_connections") listener.maxConnections]

/-- The broken rules are reported, in the order in which they come. -/
theorem flatMap_report (rules : List Rule) :
    rules.flatMap report = (rules.filter (!·.holds)).map problem := by
  induction rules with
  | nil => rfl
  | cons rule rules ih => cases h : rule.holds <;> simp [report, require, h, ih]

theorem report_eq_nil_iff {rule : Rule} : rule.report = [] ↔ rule.holds = true := by
  cases h : rule.holds <;> simp [report, require, h]

end Rule

theorem requireAddress_eq (field text : String) :
    requireAddress field text = (Rule.address field text).report := rfl

theorem requirePositive_eq (field : String) (value : Nat) :
    requirePositive field value = (Rule.positive field value).report := rfl

theorem requireListener_eq (field : String) (listener : ListenerSettings) :
    requireListener field listener = (Rule.ofListener field listener).flatMap Rule.report := by
  simp [requireListener, requireAddress_eq, requirePositive_eq, Rule.ofListener]

namespace Settings
variable {s : Settings}

/-- The rules that are checked, in the order in which they are reported. -/
def rules (s : Settings) : List Rule :=
  Rule.ofListener "control.listener" s.control.listener
    ++ [.positive "control.post_response_workers" s.control.postResponseWorkers]
    ++ Rule.ofListener "echo.listener" s.echo.listener
    ++ Rule.ofListener "proxy.listener" s.proxy.listener
    ++ [.address "proxy.backend_address" s.proxy.backendAddress,
      .positive "proxy.connect_timeout_ms" s.proxy.connectTimeoutMillis,
      .positive "proxy.buffer_size" s.proxy.bufferSize,
      .writtenApart "proxy.backend_address" s.proxy.backendAddress s.proxy.listener.bindAddress,
      .address "client.address" s.client.address,
      .positive "client.workers" s.client.workers,
      .positive "client.connect_timeout_ms" s.client.connectTimeoutMillis,
      .positive "client.eviction_interval_ms" s.client.evictionIntervalMillis,
      .positive "initiator.response_timeout_ms" s.initiator.responseTimeoutMillis]
    ++ if s.observability.metricsEnabled then
        [.address "observability.metrics_address" s.observability.metricsAddress]
      else []

theorem problems_eq (s : Settings) : s.problems = s.rules.flatMap Rule.report := by
  have hApart : require (s.proxy.listener.bindAddress != s.proxy.backendAddress) "proxy.backend_address"
      "must differ from the proxy listen address" =
        (Rule.writtenApart "proxy.backend_address" s.proxy.backendAddress
          s.proxy.listener.bindAddress).report := rfl
  unfold problems rules
  rw [hApart]
  split <;>
    simp only [requireListener_eq, requireAddress_eq, requirePositive_eq, List.flatMap_append,
      List.flatMap_cons, List.flatMap_nil, List.append_assoc, List.append_nil]

theorem isAccepted_iff : s.isAccepted = true ↔ ∀ rule ∈ s.rules, rule.holds = true := by
  rw [isAccepted, List.isEmpty_iff, problems_eq, List.flatMap_eq_nil_iff]
  exact forall₂_congr fun _ _ => Rule.report_eq_nil_iff

/-- The rules that settings should keep. -/
structure KeepsRules (s : Settings) : Prop where
  addresses : ∀ text ∈ [s.control.listener.bindAddress, s.echo.listener.bindAddress,
    s.proxy.listener.bindAddress, s.proxy.backendAddress, s.client.address],
      ∃ address, Net.SocketAddress.parse? text = some address
  metrics : s.observability.metricsEnabled = true →
    ∃ address, Net.SocketAddress.parse? s.observability.metricsAddress = some address
  apart : Net.SocketAddress.parse? s.proxy.backendAddress ≠
    Net.SocketAddress.parse? s.proxy.listener.bindAddress
  sizes : ∀ size ∈ [s.control.listener.maxConnections, s.echo.listener.maxConnections,
    s.proxy.listener.maxConnections, s.control.postResponseWorkers, s.proxy.bufferSize,
    s.client.workers], 0 < size
  timeouts : ∀ time ∈ [s.client.evictionIntervalMillis, s.proxy.connectTimeoutMillis,
    s.client.connectTimeoutMillis, s.initiator.responseTimeoutMillis,
    s.shutdown.terminationTimeoutSecs], 0 < time

/-- Settings that keep the rules are accepted, and accepted settings keep them but for the two that are not
checked. -/
theorem keepsRules_iff : s.KeepsRules ↔ s.isAccepted = true ∧
    Net.SocketAddress.parse? s.proxy.backendAddress ≠
      Net.SocketAddress.parse? s.proxy.listener.bindAddress ∧
    0 < s.shutdown.terminationTimeoutSecs := by
  have hMetrics : (∀ rule ∈ (if s.observability.metricsEnabled then
      [Rule.address "observability.metrics_address" s.observability.metricsAddress] else []),
        rule.holds = true) ↔
      (s.observability.metricsEnabled = true →
        (Net.SocketAddress.parse? s.observability.metricsAddress).isSome = true) := by
    cases s.observability.metricsEnabled <;> simp [Rule.holds]
  rw [isAccepted_iff, rules]
  simp only [Rule.ofListener, List.forall_mem_append, List.forall_mem_cons, hMetrics]
  constructor
  · rintro ⟨hAddresses, hMetrics, hApart, hSizes, hTimeouts⟩
    have hWritten : s.proxy.listener.bindAddress ≠ s.proxy.backendAddress := fun hSame =>
      hApart (by rw [hSame])
    simp_all [Rule.holds, Option.isSome_iff_exists]
  · rintro ⟨hChecked, hApart, hTime⟩
    constructor <;> simp_all [Rule.holds, Option.isSome_iff_exists]

theorem accept_eq_ok_iff {t : Settings} : s.accept = .ok t ↔ s = t ∧ s.isAccepted = true := by
  unfold accept
  split
  case isTrue hAccepted => simp [hAccepted]
  case isFalse hRefused => simp [hRefused]

theorem accept_eq_error_iff {cause : LoadError} :
    s.accept = .error cause ↔ s.isAccepted = false ∧ cause = .invalid s.problems := by
  unfold accept
  split
  case isTrue hAccepted => simp [hAccepted]
  case isFalse hRefused =>
    constructor
    · intro hCause
      cases hCause
      exact ⟨Bool.eq_false_iff.mpr hRefused, rfl⟩
    · rintro ⟨-, rfl⟩
      rfl

end Settings

/-- Settings are accepted as they are if all the rules that are checked hold, and otherwise refused with the
problems of those that do not. Whatever keeps the rules that settings should keep is accepted. What is
accepted keeps them too unless the proxy and its back end have one address, written in two ways, or there
is no time to drain in. -/
theorem accepted_settings_keep_checked_rules (s : Settings) :
    (∀ t, s.accept = .ok t ↔ s = t ∧ ∀ rule ∈ s.rules, rule.holds = true) ∧
    (∀ cause, s.accept = .error cause ↔ (∃ rule ∈ s.rules, rule.holds = false) ∧
      cause = .invalid ((s.rules.filter (!·.holds)).map Rule.problem)) ∧
    (s.KeepsRules → s.accept = .ok s) ∧
    (s.accept = .ok s → (s.KeepsRules ↔
      Net.SocketAddress.parse? s.proxy.backendAddress ≠
        Net.SocketAddress.parse? s.proxy.listener.bindAddress ∧
      0 < s.shutdown.terminationTimeoutSecs)) := by
  refine ⟨fun t => ?_, fun cause => ?_, fun hKeeps => ?_, fun hAccepted => ?_⟩
  · rw [Settings.accept_eq_ok_iff, Settings.isAccepted_iff]
  · rw [Settings.accept_eq_error_iff, Bool.eq_false_iff, ne_eq, Settings.isAccepted_iff,
      Settings.problems_eq, Rule.flatMap_report]
    simp
  · exact Settings.accept_eq_ok_iff.mpr ⟨rfl, (Settings.keepsRules_iff.mp hKeeps).1⟩
  · rw [Settings.keepsRules_iff, and_iff_right (Settings.accept_eq_ok_iff.mp hAccepted).2]

namespace Sample

/-- The proxy is its own back end. -/
def selfProxied : Settings :=
  { proxy := { listener := { bindAddress := "127.0.0.1:01" }, backendAddress := "127.0.0.1:1" } }

def hurried : Settings := { shutdown := { terminationTimeoutSecs := 0 } }

/-- The proxy has the port of its back end, in another zone of the host. -/
def zoned : Settings :=
  { proxy := { listener := { bindAddress := "[fe80::1%1]:9100" }, backendAddress := "[fe80::1%2]:09100" } }

end Sample

theorem accepted_settings_keep_checked_rules_zoned :
    Sample.zoned.accept = .ok Sample.zoned ∧ Sample.zoned.KeepsRules := by
  obtain ⟨hOk, -, -, hKeeps⟩ := accepted_settings_keep_checked_rules Sample.zoned
  have hAccepted := (hOk Sample.zoned).mpr ⟨rfl, by decide +kernel⟩
  exact ⟨hAccepted, (hKeeps hAccepted).mpr ⟨by decide +kernel, by decide⟩⟩

/-- The two ways in which accepted settings break the rules. -/
theorem accepted_against_rules :
    Sample.selfProxied.accept = .ok Sample.selfProxied ∧
    Net.SocketAddress.parse? Sample.selfProxied.proxy.backendAddress =
      Net.SocketAddress.parse? Sample.selfProxied.proxy.listener.bindAddress ∧
    Sample.hurried.accept = .ok Sample.hurried ∧ Sample.hurried.shutdown.terminationTimeoutSecs = 0 ∧
    ¬ ∀ s : Settings, s.accept = .ok s ↔ s.KeepsRules := by
  have hProxied : Sample.selfProxied.accept = .ok Sample.selfProxied :=
    Settings.accept_eq_ok_iff.mpr ⟨rfl, by decide +kernel⟩
  have hHurried : Sample.hurried.accept = .ok Sample.hurried :=
    Settings.accept_eq_ok_iff.mpr ⟨rfl, by decide +kernel⟩
  refine ⟨hProxied, by decide +kernel, hHurried, rfl, fun hClaim => ?_⟩
  exact absurd (((hClaim _).mp hHurried).timeouts 0 (by decide)) (by decide)

end Switchyard.Config
