import Switchyard.Rest.Error

/-! # Bindings

Values registered under requests, found again by the longest binding that is a prefix of a request.
-/
namespace Switchyard.Rest
set_option autoImplicit false

/-- A lookup structure for bindings. `values` lists what is registered in the structure's own order. -/
class BindingIndex (ι : Type → Type) where
  empty {α : Type} : ι α
  insert {α : Type} (index : ι α) (binding : Request) (value : α) : Except Error (ι α)
  find? {α : Type} (index : ι α) (request : Request) : Option α
  values {α : Type} (index : ι α) : List α
  size {α : Type} (index : ι α) : Nat

/-- Bindings in the order of their routing keys. -/
structure Bindings (α : Type) where
  entries : List (String × α)
  sorted : entries.Pairwise fun a b => a.1 < b.1

namespace Bindings
variable {α : Type}

def empty : Bindings α := ⟨[], .nil⟩

def insertEntry (key : String) (value : α) : List (String × α) → List (String × α)
  | [] => [(key, value)]
  | entry :: rest =>
    if key < entry.1 then (key, value) :: entry :: rest
    else entry :: insertEntry key value rest

theorem mem_insertEntry {key : String} {value : α} {entries : List (String × α)}
    {entry : String × α} :
    entry ∈ insertEntry key value entries ↔ entry = (key, value) ∨ entry ∈ entries := by
  induction entries with
  | nil => simp [insertEntry]
  | cons first rest ih =>
    rw [insertEntry]
    split
    · simp
    · rw [List.mem_cons, ih, List.mem_cons]
      exact or_left_comm

theorem sorted_insertEntry {key : String} {value : α} {entries : List (String × α)}
    (hSorted : entries.Pairwise fun a b => a.1 < b.1) (hNew : ∀ entry ∈ entries, entry.1 ≠ key) :
    (insertEntry key value entries).Pairwise fun a b => a.1 < b.1 := by
  induction entries with
  | nil => simp [insertEntry]
  | cons first rest ih =>
    rw [insertEntry]
    obtain ⟨hFirst, hRest⟩ := List.pairwise_cons.mp hSorted
    split
    case isTrue h =>
      refine List.pairwise_cons.mpr ⟨fun entry hEntry => ?_, hSorted⟩
      rcases List.mem_cons.mp hEntry with rfl | hEntry
      · exact h
      · exact String.lt_trans h (hFirst entry hEntry)
    case isFalse h =>
      refine List.pairwise_cons.mpr
        ⟨fun entry hEntry => ?_, ih hRest fun entry hEntry => hNew entry (List.mem_cons_of_mem _ hEntry)⟩
      rcases mem_insertEntry.mp hEntry with rfl | hEntry
      · exact Decidable.byContradiction fun hLe =>
          hNew first List.mem_cons_self (String.le_antisymm (String.not_lt.mp h) (String.not_lt.mp hLe))
      · exact hFirst entry hEntry

def get? (bindings : Bindings α) (key : String) : Option α :=
  (bindings.entries.find? (·.1 == key)).map (·.2)

/-- A binding can be registered once. -/
def insert (bindings : Bindings α) (binding : Request) (value : α) : Except Error (Bindings α) :=
  if h : ∀ entry ∈ bindings.entries, entry.1 ≠ binding.key then
    .ok ⟨insertEntry binding.key value bindings.entries, sorted_insertEntry bindings.sorted h⟩
  else .error (.duplicateBinding binding.display)

def find? (bindings : Bindings α) (request : Request) : Option α :=
  request.prefixKeys.findSome? bindings.get?

def values (bindings : Bindings α) : List α := bindings.entries.map (·.2)

def size (bindings : Bindings α) : Nat := bindings.entries.length

end Bindings

instance : BindingIndex Bindings where
  empty := Bindings.empty
  insert := Bindings.insert
  find? := Bindings.find?
  values := Bindings.values
  size := Bindings.size

end Switchyard.Rest
