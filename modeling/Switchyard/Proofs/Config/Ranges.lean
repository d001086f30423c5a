import Mathlib.Algebra.Group.Nat.Defs
import Mathlib.Data.List.Basic
import Switchyard.Proofs.Config.Acceptance
import Switchyard.Proofs.Config.Toml.Integers

/-! # The range of the numbers in settings

A number in settings is a default or has been read as an integer. What all integers of a document have in
common is passed on from the document to the sections, from one format to the next.
-/
namespace Switchyard.Config
set_option autoImplicit false

/-- A source fits if its integers do. -/
inductive Source.Fits : Source → Prop where
  | text (s : String) : Fits (.text s)
  | integer {n : Int} (h : IsSigned n) : Fits (.integer n)
  | boolean (b : Bool) : Fits (.boolean b)
  | date : Fits .date
  | list {items : List Source} (h : ∀ item ∈ items, item.Fits) : Fits (.list items)
  | fields {members : List (String × Source)} (h : ∀ member ∈ members, member.2.Fits) : Fits (.fields members)
  | nothing : Fits .nothing
  | other : Fits .other

namespace Source

theorem ofTomlItems_eq (items : List Toml.Node) : ofTomlItems items = items.map ofToml := by
  induction items with
  | nil => rfl
  | cons item rest ih => rw [ofTomlItems, ih, List.map_cons]

theorem ofTomlMembers_eq (members : Toml.Members) :
    ofTomlMembers members = members.map fun member => (member.1, ofToml member.2) := by
  induction members with
  | nil => rfl
  | cons member rest ih => rw [ofTomlMembers, ih, List.map_cons]

theorem ofTomlTables_eq (elements : List Toml.Members) :
    ofTomlTables elements = elements.map fun members => .fields (ofTomlMembers members) := by
  induction elements with
  | nil => rfl
  | cons members rest ih => rw [ofTomlTables, ih, List.map_cons]

theorem ofToml_fits {node : Toml.Node} (h : node.Fits) : (ofToml node).Fits := by
  induction h with
  | text s => exact .text s
  | integer h => exact .integer h
  | boolean b => exact .boolean b
  | float => exact .other
  | date => exact .date
  | array _ ih =>
    rw [ofToml, ofTomlItems_eq]
    exact .list (List.forall_mem_map.mpr ih)
  | table _ ih =>
    rw [ofToml, ofTomlMembers_eq]
    exact .fields (List.forall_mem_map.mpr ih)
  | tables _ ih =>
    rw [ofToml, ofTomlTables_eq]
    refine .list (List.forall_mem_map.mpr fun members hMembers => ?_)
    rw [ofTomlMembers_eq]
    exact .fields (List.forall_mem_map.mpr (ih members hMembers))

theorem fields_fits {members : Toml.Members} (h : members.Fits) : (fields (ofTomlMembers members)).Fits := by
  rw [ofTomlMembers_eq]
  exact .fields (List.forall_mem_map.mpr fun member hMem => ofToml_fits (h member hMem))

end Source

/-- Whatever is read from a source that fits is as asked. -/
def Format.Keeps {α : Type} (format : Format α) (P : α → Prop) : Prop :=
  ∀ dialect source value, source.Fits → format.read? dialect source = some value → P value

/-- A section stays as asked when the field is put into it. -/
def Field.Keeps {σ : Type} (field : Field σ) (P : σ → Prop) : Prop :=
  ∀ dialect source s t, source.Fits → P s → field.put? dialect source s = some t → P t

namespace Field
variable {σ α : Type} {P : σ → Prop} {Q : α → Prop} {format : Format α} {name : String} {get : σ → α}
  {set : α → σ → σ}

theorem keeps_of (hFormat : format.Keeps Q) (hSet : ∀ x s, Q x → P s → P (set x s)) :
    (Field.of name format get set).Keeps P := by
  intro dialect source s t hSource hBefore hPut
  obtain ⟨value, hRead, rfl⟩ := Option.map_eq_some_iff.mp hPut
  exact hSet value s (hFormat dialect source value hSource hRead) hBefore

/-- A field that is not asked about may have any value. -/
theorem keeps_of_spared (hSet : ∀ x s, P s → P (set x s)) : (Field.of name format get set).Keeps P :=
  keeps_of (fun _ _ _ _ _ => trivial) fun x s _ => hSet x s

end Field

namespace Format

theorem word_keeps : word.Keeps (· < 2 ^ 63) := by
  intro dialect source value hSource hRead
  cases hSource with
  | @integer n h =>
    obtain ⟨-, hLt⟩ := h
    simp only [word] at hRead
    split at hRead
    · cases hRead
      omega
    · cases hRead
  | text | boolean | date | list | fields | nothing | other => cases hRead

theorem read?_word {n : Nat} (h : n < 2 ^ 63) (dialect : Dialect) :
    word.read? dialect (.integer n) = some n := by
  simp only [word]
  rw [if_pos (by omega), Int.toNat_natCast]

theorem ofFields_keeps {σ : Type} {P : σ → Prop} {fields : List (Field σ)} {default : σ} (hDefault : P default)
    (hFields : fields.Forall (·.Keeps P)) : (ofFields fields default).Keeps P := by
  intro dialect source value hSource hRead
  rw [List.forall_iff_forall_mem] at hFields
  change readSection? fields default dialect source = some value at hRead
  cases hSource with
  | fields hMembers =>
    refine foldlM_keeps (fun (name, inner) hMem s t hBefore hStep => ?_) hDefault hRead
    dsimp only at hStep
    split at hStep
    · rename_i field hFind
      exact hFields field (List.mem_of_find?_eq_some hFind) dialect inner s t (hMembers _ hMem) hBefore hStep
    · exact Option.some.inj hStep ▸ hBefore
  | list hItems =>
    simp only [readSection?] at hRead
    split at hRead
    · cases hRead
    · refine foldlM_keeps (fun (field, item) hMem s t hBefore hStep => ?_) hDefault hRead
      obtain ⟨hField, hItem⟩ := List.of_mem_zip hMem
      exact hFields field hField dialect item s t (hItems item hItem) hBefore hStep
  | date => exact Option.some.inj hRead ▸ hDefault
  | text | integer | boolean | nothing | other => cases hRead

end Format

def ListenerSettings.numbers (s : ListenerSettings) : List Nat := [s.maxConnections]

def ControlSettings.numbers (s : ControlSettings) : List Nat := s.listener.numbers ++ [s.postResponseWorkers]

def EchoSettings.numbers (s : EchoSettings) : List Nat := s.listener.numbers

def ProxySettings.numbers (s : ProxySettings) : List Nat :=
  s.listener.numbers ++ [s.connectTimeoutMillis, s.bufferSize]

def ClientSettings.numbers (s : ClientSettings) : List Nat :=
  [s.workers, s.connectTimeoutMillis, s.minEvictableIdleMillis, s.evictionIntervalMillis]

/-- All numbers in settings. -/
def Settings.numbers (s : Settings) : List Nat :=
  s.control.numbers ++ s.echo.numbers ++ s.proxy.numbers ++ s.client.numbers
    ++ [s.initiator.responseTimeoutMillis, s.shutdown.terminationTimeoutSecs]

namespace Format
open Config.Field

theorem listener_keeps : listener.Keeps fun s => ∀ n ∈ s.numbers, n < 2 ^ 63 := by
  refine ofFields_keeps (by decide) ⟨keeps_of_spared fun _ _ h => h, keeps_of word_keeps ?_⟩
  intro n s hWord h
  exact List.forall_mem_singleton.mpr hWord

theorem control_keeps : control.Keeps fun s => ∀ n ∈ s.numbers, n < 2 ^ 63 := by
  refine ofFields_keeps (by decide)
    ⟨keeps_of_spared fun _ _ h => h, keeps_of listener_keeps ?_, keeps_of word_keeps ?_⟩ <;>
  · intro x s hRead h
    simp only [ControlSettings.numbers, List.forall_mem_append, List.forall_mem_cons] at h ⊢
    tauto

theorem echo_keeps : echo.Keeps fun s => ∀ n ∈ s.numbers, n < 2 ^ 63 :=
  ofFields_keeps (by decide) ⟨keeps_of_spared fun _ _ h => h, keeps_of listener_keeps fun _ _ hRead _ => hRead⟩

theorem proxy_keeps : proxy.Keeps fun s => ∀ n ∈ s.numbers, n < 2 ^ 63 := by
  refine ofFields_keeps (by decide)
    ⟨keeps_of_spared fun _ _ h => h, keeps_of listener_keeps ?_, keeps_of_spared fun _ _ h => h,
      keeps_of word_keeps ?_, keeps_of word_keeps ?_⟩ <;>
  · intro x s hRead h
    simp only [ProxySettings.numbers, List.forall_mem_append, List.forall_mem_cons] at h ⊢
    tauto

theorem client_keeps : client.Keeps fun s => ∀ n ∈ s.numbers, n < 2 ^ 63 := by
  refine ofFields_keeps (by decide)
    ⟨keeps_of_spared fun _ _ h => h, keeps_of_spared fun _ _ h => h, keeps_of word_keeps ?_,
      keeps_of word_keeps ?_, keeps_of word_keeps ?_, keeps_of word_keeps ?_⟩ <;>
  · intro x s hRead h
    simp only [ClientSettings.numbers, List.forall_mem_cons] at h ⊢
    tauto

theorem initiator_keeps : initiator.Keeps (·.responseTimeoutMillis < 2 ^ 63) :=
  ofFields_keeps (by decide) ⟨keeps_of word_keeps fun _ _ hRead _ => hRead, keeps_of_spared fun _ _ h => h⟩

theorem shutdown_keeps : shutdown.Keeps (·.terminationTimeoutSecs < 2 ^ 63) :=
  ofFields_keeps (by decide) (keeps_of word_keeps fun _ _ hRead _ => hRead)

theorem settings_keeps : settings.Keeps fun s => ∀ n ∈ s.numbers, n < 2 ^ 63 := by
  refine ofFields_keeps (by decide)
    ⟨keeps_of control_keeps ?_, keeps_of echo_keeps ?_, keeps_of proxy_keeps ?_, keeps_of client_keeps ?_,
      keeps_of initiator_keeps ?_, keeps_of shutdown_keeps ?_, keeps_of_spared fun _ _ h => h⟩ <;>
  · intro x s hRead h
    simp only [Settings.numbers, List.forall_mem_append, List.forall_mem_cons] at h ⊢
    tauto

end Format

namespace Settings
variable {text : String} {s : Settings}

theorem parse_eq_ok_iff : parse text = .ok s ↔ ∃ members, Toml.parse? text = some members ∧
    Format.settings.read? .toml (.fields (Source.ofTomlMembers members)) = some s ∧ s.isAccepted = true := by
  unfold parse ofSource
  cases Toml.parse? text with
  | none => simp
  | some members =>
    simp only [Option.some.injEq, exists_eq_left']
    cases Format.settings.read? .toml (.fields (Source.ofTomlMembers members)) with
    | none => simp
    | some read =>
      simp only [accept_eq_ok_iff, Option.some.injEq]
      exact and_congr_right fun hEq => hEq ▸ Iff.rfl

/-- All numbers in settings that are read from a text are integers of 64 bits with their sign. -/
theorem numbers_lt (h : parse text = .ok s) : ∀ n ∈ s.numbers, n < 2 ^ 63 := by
  obtain ⟨members, hMembers, hRead, -⟩ := parse_eq_ok_iff.mp h
  exact Format.settings_keeps _ _ _ (Source.fields_fits (Toml.parse?_fits hMembers)) hRead

end Settings
end Switchyard.Config
