import Switchyard.Proofs.Config.Ranges
import Switchyard.Proofs.Config.Toml.Writing

/-! # How many slots settings ask for

Four numbers in settings are numbers of slots: one for each listener, and the workers of the control server.
The rules for settings only ask that there be some. So any four numbers may be asked for, from one to the
greatest integer of 64 bits with its sign.
-/
namespace Switchyard.Config
open Toml
set_option autoImplicit false

/-- The greatest numbers of connections on the three listeners, and the number of workers. -/
structure SlotCounts where
  control : Nat
  echo : Nat
  proxy : Nat
  workers : Nat

def SlotCounts.toList (n : SlotCounts) : List Nat := [n.control, n.echo, n.proxy, n.workers]

namespace Settings

def listeners (s : Settings) : List ListenerSettings := [s.control.listener, s.echo.listener, s.proxy.listener]

def slotCounts (s : Settings) : SlotCounts where
  control := s.control.listener.maxConnections
  echo := s.echo.listener.maxConnections
  proxy := s.proxy.listener.maxConnections
  workers := s.control.postResponseWorkers

variable {s : Settings}

theorem mem_numbers_of_mem_slotCounts {count : Nat} (h : count ∈ s.slotCounts.toList) : count ∈ s.numbers := by
  simp only [slotCounts, SlotCounts.toList, List.mem_cons, List.not_mem_nil, or_false] at h
  simp only [numbers, ControlSettings.numbers, EchoSettings.numbers, ProxySettings.numbers,
    ListenerSettings.numbers, List.mem_append, List.mem_cons]
  tauto

theorem maxConnections_mem_slotCounts {listener : ListenerSettings} (h : listener ∈ s.listeners) :
    listener.maxConnections ∈ s.slotCounts.toList := by
  simp only [listeners, List.mem_cons, List.not_mem_nil, or_false] at h
  rcases h with rfl | rfl | rfl <;> simp [slotCounts, SlotCounts.toList]

theorem slotCounts_pos (h : s.isAccepted = true) : ∀ count ∈ s.slotCounts.toList, 0 < count := by
  rw [isAccepted_iff, rules] at h
  simp only [Rule.ofListener, List.forall_mem_append, List.forall_mem_cons, Rule.holds, decide_eq_true_eq] at h
  simp only [slotCounts, SlotCounts.toList, List.forall_mem_cons]
  tauto

theorem exists_address_of_accepted (h : s.isAccepted = true) {listener : ListenerSettings}
    (hListener : listener ∈ s.listeners) :
    ∃ address, Net.SocketAddress.parse? listener.bindAddress = some address := by
  rw [isAccepted_iff, rules] at h
  simp only [Rule.ofListener, List.forall_mem_append, List.forall_mem_cons, Rule.holds] at h
  simp only [listeners, List.mem_cons, List.not_mem_nil, or_false] at hListener
  rw [← Option.isSome_iff_exists]
  rcases hListener with rfl | rfl | rfl <;> tauto

end Settings

namespace SlotCounts
variable (n : SlotCounts) (hLt : ∀ count ∈ n.toList, count < 2 ^ 63)

/-- The settings that tell nothing but these numbers. -/
def settings : Settings where
  control := { listener := { maxConnections := n.control }, postResponseWorkers := n.workers }
  echo := { listener := { maxConnections := n.echo } }
  proxy := { listener := { maxConnections := n.proxy } }

def members : Members :=
  let listener (count : Nat) : Node := .table .dotted [("max_connections", .integer count)]
  [("control", .table .dotted [("listener", listener n.control), ("post_response_workers", .integer n.workers)]),
    ("echo", .table .dotted [("listener", listener n.echo)]),
    ("proxy", .table .dotted [("listener", listener n.proxy)])]

def entries : List Entry :=
  [{ keys := ["control", "listener", "max_connections"], value := n.control, value_lt := hLt _ (by simp [toList]) },
    { keys := ["control", "post_response_workers"], value := n.workers, value_lt := hLt _ (by simp [toList]) },
    { keys := ["echo", "listener", "max_connections"], value := n.echo, value_lt := hLt _ (by simp [toList]) },
    { keys := ["proxy", "listener", "max_connections"], value := n.proxy, value_lt := hLt _ (by simp [toList]) }]

theorem parse?_entries : parse? (written (n.entries hLt)) = some n.members := by
  rw [parse?_written]
  rfl

include hLt in
theorem read?_members :
    Format.settings.read? .toml (.fields (Source.ofTomlMembers n.members)) = some n.settings := by
  have hControl := Format.read?_word (hLt n.control (by simp [toList])) .toml
  have hEcho := Format.read?_word (hLt n.echo (by simp [toList])) .toml
  have hProxy := Format.read?_word (hLt n.proxy (by simp [toList])) .toml
  have hWorkers := Format.read?_word (hLt n.workers (by simp [toList])) .toml
  simp [Format.settings, Format.control, Format.echo, Format.proxy, Format.listener, Format.ofFields,
    Format.readSection?, Field.of, members, Source.ofTomlMembers, Source.ofToml, settings, hControl, hEcho,
    hProxy, hWorkers]

theorem isAccepted_settings (hPos : ∀ count ∈ n.toList, 0 < count) : n.settings.isAccepted = true := by
  have hOne : (settings ⟨1, 1, 1, 1⟩).isAccepted = true := by decide +kernel
  rw [Settings.isAccepted_iff] at hOne ⊢
  simp only [Settings.rules, Rule.ofListener, List.forall_mem_append, List.forall_mem_cons, Rule.holds, settings,
    decide_eq_true_eq] at hOne ⊢
  simp only [toList, List.forall_mem_cons] at hPos
  tauto

end SlotCounts

/-- Settings read from some text ask for these numbers of slots. -/
theorem exists_parse_iff (n : SlotCounts) : (∃ text s, Settings.parse text = .ok s ∧ s.slotCounts = n) ↔
    ∀ count ∈ n.toList, 0 < count ∧ count < 2 ^ 63 := by
  constructor
  · rintro ⟨text, s, hParse, rfl⟩ count hCount
    obtain ⟨-, -, -, hAccepted⟩ := Settings.parse_eq_ok_iff.mp hParse
    exact ⟨Settings.slotCounts_pos hAccepted count hCount,
      Settings.numbers_lt hParse count (Settings.mem_numbers_of_mem_slotCounts hCount)⟩
  · intro hRange
    have hLt : ∀ count ∈ n.toList, count < 2 ^ 63 := fun count hCount => (hRange count hCount).2
    refine ⟨written (n.entries hLt), n.settings, Settings.parse_eq_ok_iff.mpr ⟨n.members, ?_, ?_, ?_⟩, rfl⟩
    · exact n.parse?_entries hLt
    · exact n.read?_members hLt
    · exact n.isAccepted_settings fun count hCount => (hRange count hCount).1

end Switchyard.Config
