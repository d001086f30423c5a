import Mathlib.Algebra.Group.Int.Defs
import Switchyard.Config.Toml.Reader

/-! # The integers of a document

An integer is refused when it is read if it does not fit into 64 bits with its sign, and a document is put
together from what has been read. So no document has an integer that does not fit.
-/
namespace Switchyard.Config
set_option autoImplicit false

/-- What each step of a fold keeps, the fold keeps. -/
theorem foldlM_keeps {α β : Type} {P : β → Prop} {f : β → α → Option β} {items : List α} {b c : β}
    (hStep : ∀ a ∈ items, ∀ b c, P b → f b a = some c → P c) (hStart : P b)
    (hFold : items.foldlM f b = some c) : P c := by
  induction items generalizing b with
  | nil => exact Option.some.inj hFold ▸ hStart
  | cons a items ih =>
    rw [List.foldlM_cons] at hFold
    obtain ⟨next, hNext, hRest⟩ := Option.bind_eq_some_iff.mp hFold
    exact ih (fun a ha => hStep a (List.mem_cons_of_mem _ ha)) (hStep a List.mem_cons_self b next hStart hNext)
      hRest

/-- An integer of 64 bits with its sign. -/
def IsSigned (n : Int) : Prop := -2 ^ 63 ≤ n ∧ n < 2 ^ 63

namespace Toml

/-- A node fits if its integers do. -/
inductive Node.Fits : Node → Prop where
  | text (s : String) : Fits (.text s)
  | integer {n : Int} (h : IsSigned n) : Fits (.integer n)
  | boolean (b : Bool) : Fits (.boolean b)
  | float : Fits .float
  | date : Fits .date
  | array {items : List Node} (h : ∀ item ∈ items, item.Fits) : Fits (.array items)
  | table {origin : Origin} {members : List (String × Node)} (h : ∀ member ∈ members, member.2.Fits) :
      Fits (.table origin members)
  | tables {elements : List (List (String × Node))}
      (h : ∀ members ∈ elements, ∀ member ∈ members, member.2.Fits) : Fits (.tables elements)

namespace Members
variable {members inner result : Members} {key : String} {keys : List String} {node value : Node}

def Fits (members : Members) : Prop := ∀ member ∈ members, member.2.Fits

theorem fits_nil : Fits [] := List.forall_mem_nil _

theorem Fits.concat (h : members.Fits) (hNode : node.Fits) (key : String) : Fits (members ++ [(key, node)]) :=
  List.forall_mem_append.mpr ⟨h, List.forall_mem_singleton.mpr hNode⟩

theorem Fits.get? (h : members.Fits) (hGet : members.get? key = some node) : node.Fits := by
  obtain ⟨member, hFind, rfl⟩ := Option.map_eq_some_iff.mp hGet
  exact h member (List.mem_of_find?_eq_some hFind)

theorem Fits.set (h : members.Fits) (hNode : node.Fits) (key : String) : Fits (members.set key node) := by
  induction members with
  | nil => exact List.forall_mem_singleton.mpr hNode
  | cons member rest ih =>
    obtain ⟨hMember, hRest⟩ := List.forall_mem_cons.mp h
    rw [Members.set]
    split
    · exact List.forall_mem_cons.mpr ⟨hNode, hRest⟩
    · exact List.forall_mem_cons.mpr ⟨hMember, ih hRest⟩

/-- The last table of an array is changed, and the array with it. -/
theorem Fits.setLast (h : members.Fits) {elements : List Members} (hGet : members.get? key = some (.tables elements))
    (hResult : result.Fits) : Fits (members.set key (.tables (elements.dropLast ++ [result]))) := by
  cases h.get? hGet with
  | tables hElements =>
    refine h.set (.tables (List.forall_mem_append.mpr ⟨fun element hMem => ?_, ?_⟩)) key
    · exact hElements element (List.dropLast_subset _ hMem)
    · exact List.forall_mem_singleton.mpr hResult

theorem Fits.getLast (h : members.Fits) {elements : List Members} {last : Members}
    (hGet : members.get? key = some (.tables elements)) (hLast : elements.getLast? = some last) : last.Fits := by
  cases h.get? hGet with
  | tables hElements => exact hElements last (List.mem_of_getLast? hLast)

theorem Fits.table (h : members.Fits) {origin : Origin} (hGet : members.get? key = some (.table origin inner)) :
    inner.Fits := by
  cases h.get? hGet with
  | table hInner => exact hInner

/-- What a header leads to is changed, and what is on the way is made or changed with it. -/
theorem alter?_fits {change : Members → Option Members}
    (hChange : ∀ members result : Members, members.Fits → change members = some result → result.Fits)
    (h : members.Fits) (hAlter : alter? change keys members = some result) : result.Fits := by
  induction keys generalizing members result with
  | nil => exact hChange members result h hAlter
  | cons key rest ih =>
    rw [alter?] at hAlter
    split at hAlter
    · obtain ⟨inner, hInner, rfl⟩ := Option.map_eq_some_iff.mp hAlter
      exact h.set (.table (ih fits_nil hInner)) key
    · rename_i origin inner hGet
      split at hAlter
      · cases hAlter
      · obtain ⟨changed, hChanged, rfl⟩ := Option.map_eq_some_iff.mp hAlter
        exact h.set (.table (ih (h.table hGet) hChanged)) key
    · rename_i elements hGet
      split at hAlter
      · rename_i last hLast
        obtain ⟨changed, hChanged, rfl⟩ := Option.map_eq_some_iff.mp hAlter
        exact h.setLast hGet (ih (h.getLast hGet hLast) hChanged)
      · cases hAlter
    · cases hAlter

theorem insert?_fits (hValue : value.Fits) (h : members.Fits)
    (hInsert : insert? value keys members = some result) : result.Fits := by
  induction keys generalizing members result with
  | nil => cases hInsert
  | cons key rest ih =>
    cases rest with
    | nil =>
      rw [insert?] at hInsert
      split at hInsert
      · cases hInsert
      · exact Option.some.inj hInsert ▸ h.concat hValue key
    | cons next rest =>
      rw [insert?] at hInsert
      split at hInsert
      · obtain ⟨inner, hInner, rfl⟩ := Option.map_eq_some_iff.mp hInsert
        exact h.concat (.table (ih fits_nil hInner)) key
      · rename_i origin inner hGet
        split at hInsert
        · obtain ⟨changed, hChanged, rfl⟩ := Option.map_eq_some_iff.mp hInsert
          exact h.set (.table (ih (h.table hGet) hChanged)) key
        · cases hInsert
      · rename_i elements hGet
        split at hInsert
        · rename_i last hLast
          obtain ⟨changed, hChanged, rfl⟩ := Option.map_eq_some_iff.mp hInsert
          exact h.setLast hGet (ih (h.getLast hGet hLast) hChanged)
        · cases hInsert
      · cases hInsert

theorem ofPairs?_fits {pairs : List (List String × Node)} (h : ∀ pair ∈ pairs, pair.2.Fits)
    (hPairs : ofPairs? pairs = some result) : result.Fits :=
  foldlM_keeps (fun pair hMem _ _ hMembers hInsert => insert?_fits (h pair hMem) hMembers hInsert) fits_nil hPairs

end Members

namespace Document
variable {doc next : Document} {keys : List String}

theorem underHeader?_fits {change : String → Members → Option Members}
    (hChange : ∀ (key : String) (members result : Members), members.Fits → change key members = some result →
      result.Fits)
    (h : doc.members.Fits) (hNext : doc.underHeader? keys change = some next) : next.members.Fits := by
  rw [underHeader?] at hNext
  split at hNext
  · cases hNext
  · obtain ⟨members, hAlter, rfl⟩ := Option.map_eq_some_iff.mp hNext
    exact Members.alter?_fits (hChange _) h hAlter

theorem openTable?_fits (h : doc.members.Fits) (hNext : doc.openTable? keys = some next) : next.members.Fits := by
  refine underHeader?_fits (fun key members result hMembers hChange => ?_) h hNext
  split at hChange
  · exact Option.some.inj hChange ▸ hMembers.concat (.table Members.fits_nil) key
  · rename_i hGet
    exact Option.some.inj hChange ▸ hMembers.set (.table (hMembers.table hGet)) key
  · cases hChange

theorem openElement?_fits (h : doc.members.Fits) (hNext : doc.openElement? keys = some next) :
    next.members.Fits := by
  refine underHeader?_fits (fun key members result hMembers hChange => ?_) h hNext
  split at hChange
  · refine Option.some.inj hChange ▸ hMembers.concat (.tables ?_) key
    exact List.forall_mem_singleton.mpr Members.fits_nil
  · rename_i elements hGet
    cases hMembers.get? hGet with
    | tables hElements =>
      refine Option.some.inj hChange ▸ hMembers.set (.tables ?_) key
      exact List.forall_mem_append.mpr ⟨hElements, List.forall_mem_singleton.mpr Members.fits_nil⟩
  · cases hChange

theorem insert?_fits {value : Node} (hValue : value.Fits) (h : doc.members.Fits)
    (hNext : doc.insert? keys value = some next) : next.members.Fits := by
  obtain ⟨members, hAlter, rfl⟩ := Option.map_eq_some_iff.mp hNext
  exact Members.alter?_fits (fun _ _ => Members.insert?_fits hValue) h hAlter

end Document

section Reading
variable {text rest : List Char} {node : Node} {doc next : Document}

theorem signed?_fits {negative : Bool} {n : Nat} (h : signed? negative n = some node) : node.Fits := by
  unfold signed? at h
  split at h <;> split at h
  · cases h
    exact .integer ⟨by omega, by omega⟩
  · cases h
  · cases h
    exact .integer ⟨by omega, by omega⟩
  · cases h

theorem readInRadix?_fits {radix : Nat} (h : readInRadix? radix text = some (node, rest)) : node.Fits := by
  simp only [readInRadix?, Option.bind_eq_bind, Option.bind_eq_some_iff] at h
  obtain ⟨_, -, _, hSigned, hNode⟩ := h
  cases hNode
  exact signed?_fits hSigned

theorem readInteger?_fits (h : readInteger? text = some (node, rest)) : node.Fits := by
  unfold readInteger? at h
  split at h
  · exact readInRadix?_fits h
  · exact readInRadix?_fits h
  · exact readInRadix?_fits h
  · simp only [Option.bind_eq_bind, Option.bind_eq_some_iff] at h
    obtain ⟨_, -, _, hSigned, hNode⟩ := h
    cases hNode
    exact signed?_fits hSigned

theorem readFloat?_eq_float (h : readFloat? text = some (node, rest)) : node = .float := by
  unfold readFloat? at h
  dsimp only at h
  split at h
  · unfold readNamedFloat? at h
    split at h <;> cases h <;> rfl
  · simp only [Option.bind_eq_bind, Option.bind_eq_some_iff] at h
    obtain ⟨_, -, hFloat⟩ := h
    split at hFloat <;> cases hFloat
    rfl

theorem readDate?_eq_date (h : readDate? text = some (node, rest)) : node = .date := by
  unfold readDate? at h
  split at h
  · cases h
    rfl
  · obtain ⟨_, -, hDate⟩ := Option.map_eq_some_iff.mp h
    cases hDate
    rfl

theorem readNumber?_fits
    (h : (((readDate? text).orElse fun _ => readFloat? text).orElse fun _ => readInteger? text) =
      some (node, rest)) : node.Fits := by
  simp only [Option.orElse_eq_or, Option.or_eq_some_iff] at h
  rcases h with (hDate | ⟨-, hFloat⟩) | ⟨-, hInteger⟩
  · exact readDate?_eq_date hDate ▸ .date
  · exact readFloat?_eq_float hFloat ▸ .float
  · exact readInteger?_fits hInteger

theorem readWord?_eq {word : String} {value : Node} (h : readWord? word value text = some (node, rest)) :
    node = value := by
  unfold readWord? at h
  split at h <;> cases h
  rfl

/-- With this fuel all that is read fits. Values, items of arrays and members of tables between braces are read
by turns, so this is said of all three at once. -/
structure ReadsFit (fuel : Nat) : Prop where
  value : ∀ depth text node rest, readValue? fuel depth text = some (node, rest) → node.Fits
  items : ∀ depth text items rest, readItems? fuel depth text = some (items, rest) → ∀ item ∈ items, item.Fits
  pairs : ∀ depth text pairs rest, readPairs? fuel depth text = some (pairs, rest) →
    ∀ pair ∈ pairs, pair.2.Fits

namespace ReadsFit
variable {fuel depth : Nat}

theorem value_succ (h : ReadsFit fuel) (hRead : readValue? (fuel + 1) depth text = some (node, rest)) :
    node.Fits := by
  unfold readValue? at hRead
  split at hRead
  · obtain ⟨_, -, hText⟩ := Option.map_eq_some_iff.mp hRead
    cases hText
    exact .text _
  · obtain ⟨_, -, hText⟩ := Option.map_eq_some_iff.mp hRead
    cases hText
    exact .text _
  · split at hRead
    · cases hRead
    · obtain ⟨⟨items, left⟩, hItems, hArray⟩ := Option.map_eq_some_iff.mp hRead
      cases hArray
      exact .array (h.items _ _ _ _ hItems)
  · split at hRead
    · cases hRead
    · split at hRead
      · cases hRead
        exact .table Members.fits_nil
      · simp only [Option.bind_eq_bind, Option.bind_eq_some_iff] at hRead
        obtain ⟨⟨pairs, left⟩, hPairs, members, hMembers, hTable⟩ := hRead
        cases hTable
        exact .table (Members.ofPairs?_fits (h.pairs _ _ _ _ hPairs) hMembers)
  · exact readWord?_eq hRead ▸ .boolean true
  · exact readWord?_eq hRead ▸ .boolean false
  · exact readNumber?_fits hRead

theorem items_succ (h : ReadsFit fuel) {items : List Node}
    (hRead : readItems? (fuel + 1) depth text = some (items, rest)) : ∀ item ∈ items, item.Fits := by
  unfold readItems? at hRead
  split at hRead
  · cases hRead
    exact List.forall_mem_nil _
  · simp only [Option.bind_eq_bind, Option.bind_eq_some_iff] at hRead
    obtain ⟨⟨item, left⟩, hItem, hRest⟩ := hRead
    have hFits := h.value _ _ _ _ hItem
    split at hRest
    · cases hRest
      exact List.forall_mem_singleton.mpr hFits
    · simp only [Option.bind_eq_some_iff] at hRest
      obtain ⟨⟨more, _⟩, hMore, hList⟩ := hRest
      cases hList
      exact List.forall_mem_cons.mpr ⟨hFits, h.items _ _ _ _ hMore⟩
    · cases hRest

theorem pairs_succ (h : ReadsFit fuel) {pairs : List (List String × Node)}
    (hRead : readPairs? (fuel + 1) depth text = some (pairs, rest)) : ∀ pair ∈ pairs, pair.2.Fits := by
  unfold readPairs? at hRead
  simp only [Option.bind_eq_bind, Option.bind_eq_some_iff] at hRead
  obtain ⟨⟨keys, left⟩, -, _, -, ⟨value, _⟩, hValue, hRest⟩ := hRead
  have hFits := h.value _ _ _ _ hValue
  split at hRest
  · cases hRest
    exact List.forall_mem_singleton.mpr hFits
  · simp only [Option.bind_eq_some_iff] at hRest
    obtain ⟨⟨more, _⟩, hMore, hList⟩ := hRest
    cases hList
    exact List.forall_mem_cons.mpr ⟨hFits, h.pairs _ _ _ _ hMore⟩
  · cases hRest

end ReadsFit

theorem readsFit (fuel : Nat) : ReadsFit fuel := by
  induction fuel with
  | zero =>
    constructor
    all_goals
      intro _ _ _ _ h
      cases h
  | succ fuel ih =>
    exact ⟨fun _ _ _ _ => ih.value_succ, fun _ _ _ _ => ih.items_succ, fun _ _ _ _ => ih.pairs_succ⟩

theorem readExpression?_fits (hDoc : doc.members.Fits) (h : readExpression? doc text = some (next, rest)) :
    next.members.Fits := by
  unfold readExpression? at h
  split at h
  · simp only [Option.bind_eq_bind, Option.bind_eq_some_iff] at h
    obtain ⟨_, -, _, -, _, -, _, -, opened, hOpen, hNext⟩ := h
    cases hNext
    exact Document.openElement?_fits hDoc hOpen
  · simp only [Option.bind_eq_bind, Option.bind_eq_some_iff] at h
    obtain ⟨_, -, _, -, _, -, opened, hOpen, hNext⟩ := h
    cases hNext
    exact Document.openTable?_fits hDoc hOpen
  · simp only [Option.bind_eq_bind, Option.bind_eq_some_iff] at h
    obtain ⟨_, -, _, -, ⟨value, _⟩, hRead, _, -, filled, hInsert, hNext⟩ := h
    cases hNext
    exact Document.insert?_fits ((readsFit _).value _ _ _ _ hRead) hDoc hInsert

theorem readExpressions?_fits {fuel : Nat} (hDoc : doc.members.Fits)
    (h : readExpressions? fuel doc text = some next) : next.members.Fits := by
  induction fuel generalizing doc text with
  | zero => cases h
  | succ fuel ih =>
    rw [readExpressions?] at h
    split at h
    · exact Option.some.inj h ▸ hDoc
    · simp only [Option.bind_eq_bind, Option.bind_eq_some_iff] at h
      obtain ⟨⟨grown, left⟩, hRead, hRest⟩ := h
      exact ih (readExpression?_fits hDoc hRead) hRest

end Reading

/-- Every integer in a document that can be read has 64 bits with its sign. -/
theorem parse?_fits {text : String} {members : Members} (h : parse? text = some members) : members.Fits := by
  obtain ⟨doc, hRead, rfl⟩ := Option.map_eq_some_iff.mp h
  exact readExpressions?_fits Members.fits_nil hRead

end Toml
end Switchyard.Config
