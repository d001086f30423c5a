import Switchyard.Proofs.Rest.NormalForm

/-! # The prefix relation

One request is a prefix of another if its segments are the first ones of the other's, which can be read
off the routing keys as well: its key is then a beginning of the other's key, and one of those cut out of
it. For every key ends with a slash, and there is none in a segment. The relation is a partial order below
the order of the keys, and the prefixes of one request are a chain in it.
-/
namespace Switchyard.Rest
set_option autoImplicit false

theorem closedPieces_append (pieces others : List (List Char)) :
    closedPieces (pieces ++ others) = closedPieces pieces ++ closedPieces others :=
  List.flatMap_append

theorem closedPieces_prefix_iff {pieces others : List (List Char)}
    (hPieces : ∀ piece ∈ pieces, '/' ∉ piece) (hOthers : ∀ piece ∈ others, '/' ∉ piece) :
    closedPieces pieces <+: closedPieces others ↔ pieces <+: others := by
  constructor
  · intro h
    induction pieces generalizing others with
    | nil => exact List.nil_prefix
    | cons piece pieces ih =>
      obtain ⟨behind, hBehind⟩ := h
      cases others with
      | nil => simp at hBehind
      | cons other others =>
        rw [closedPieces_cons, closedPieces_cons, List.append_assoc, List.cons_append] at hBehind
        -- The first slash ends the first piece on both sides.
        obtain ⟨rfl, hRest⟩ := eq_and_eq_of_append_cons_eq (hPieces piece List.mem_cons_self)
          (hOthers other List.mem_cons_self) hBehind
        exact List.prefix_cons_inj piece |>.mpr (ih (fun p hp => hPieces p (List.mem_cons_of_mem _ hp))
          (fun p hp => hOthers p (List.mem_cons_of_mem _ hp)) ⟨behind, hRest⟩)
  · rintro ⟨more, rfl⟩
    exact ⟨closedPieces more, (closedPieces_append pieces more).symm⟩

namespace Request
variable {a b r : Request}

theorem isPrefixOf_iff : a.isPrefixOf b = true ↔ a.method = b.method ∧ a.segments <+: b.segments := by
  rw [isPrefixOf, Bool.and_eq_true, beq_iff_eq, List.isPrefixOf_iff_prefix]

theorem toList_key (r : Request) :
    r.key.toList = r.method.name.toList ++ ' ' :: '/' :: closedPieces r.pieces := by
  simp [key, toList_rawPath]

theorem pieces_prefix_iff : a.pieces <+: b.pieces ↔ a.segments <+: b.segments :=
  List.prefix_map_iff_of_injective fun _ _ hRaw => Segment.ext_raw (String.ext hRaw)

/-- The method and the path are read off a key, and the segments off the path. -/
theorem key_prefix_iff : a.key.toList <+: b.key.toList ↔ a.isPrefixOf b = true := by
  have hPieces : closedPieces a.pieces <+: closedPieces b.pieces ↔ a.segments <+: b.segments :=
    (closedPieces_prefix_iff (fun _ => slash_notMem_of_mem_pieces)
      (fun _ => slash_notMem_of_mem_pieces)).trans pieces_prefix_iff
  rw [isPrefixOf_iff, toList_key, toList_key]
  constructor
  · rintro ⟨behind, hBehind⟩
    rw [List.append_assoc, List.cons_append] at hBehind
    obtain ⟨hName, hPath⟩ := eq_and_eq_of_append_cons_eq a.method.space_notMem_name
      b.method.space_notMem_name hBehind
    exact ⟨Method.name_injective (String.ext hName), hPieces.mp ⟨behind, (List.cons.inj hPath).2⟩⟩
  · rintro ⟨hMethod, hSegments⟩
    obtain ⟨behind, hBehind⟩ := hPieces.mpr hSegments
    exact ⟨behind, by rw [hMethod, ← hBehind]; simp⟩

theorem mem_prefixKeys_iff : a.key ∈ r.prefixKeys ↔ a.isPrefixOf r = true := by
  rw [prefixKeys_eq, List.mem_map_of_injective fun _ _ => key_injective, List.mem_reverse, mem_ancestors]

theorem length_prefixKeys (r : Request) : r.prefixKeys.length = r.depth + 1 := by
  simp [prefixKeys_eq, ancestors, depth]

theorem exists_of_mem_prefixKeys {key : String} (h : key ∈ r.prefixKeys) :
    ∃ a : Request, parse key = .ok a ∧ a.isPrefixOf r = true := by
  rw [prefixKeys_eq, List.mem_map] at h
  obtain ⟨a, hMem, rfl⟩ := h
  exact ⟨a, parse_key a, mem_ancestors.mp (List.mem_reverse.mp hMem)⟩

theorem isPrefixOf_refl (r : Request) : r.isPrefixOf r = true := isPrefixOf_iff.mpr ⟨rfl, List.prefix_rfl⟩

theorem isPrefixOf_trans (hab : a.isPrefixOf b = true) (hbr : b.isPrefixOf r = true) :
    a.isPrefixOf r = true := by
  obtain ⟨hMethod, hSegments⟩ := isPrefixOf_iff.mp hab
  obtain ⟨hMethod', hSegments'⟩ := isPrefixOf_iff.mp hbr
  exact isPrefixOf_iff.mpr ⟨hMethod.trans hMethod', hSegments.trans hSegments'⟩

theorem isPrefixOf_antisymm (hab : a.isPrefixOf b = true) (hba : b.isPrefixOf a = true) : a = b := by
  have hKeys := key_prefix_iff.mpr hab
  have hBack := key_prefix_iff.mpr hba
  exact key_injective (String.ext (hKeys.eq_of_length_le hBack.length_le))

/-- The prefixes of one request are a chain. -/
theorem isPrefixOf_total (har : a.isPrefixOf r = true) (hbr : b.isPrefixOf r = true) :
    a.isPrefixOf b = true ∨ b.isPrefixOf a = true := by
  obtain ⟨hMethod, hSegments⟩ := isPrefixOf_iff.mp har
  obtain ⟨hMethod', hSegments'⟩ := isPrefixOf_iff.mp hbr
  rcases List.prefix_or_prefix_of_prefix hSegments hSegments' with hPrefix | hPrefix
  · exact .inl (isPrefixOf_iff.mpr ⟨hMethod.trans hMethod'.symm, hPrefix⟩)
  · exact .inr (isPrefixOf_iff.mpr ⟨hMethod'.trans hMethod.symm, hPrefix⟩)

theorem depth_le_of_isPrefixOf (h : a.isPrefixOf b = true) : a.depth ≤ b.depth :=
  (isPrefixOf_iff.mp h).2.length_le

theorem isLE_compare_of_isPrefixOf (h : a.isPrefixOf b = true) : (compare a b).isLE = true := by
  have hKeys := (key_prefix_iff.mpr h).le
  have hOrder : a.key ≤ b.key :=
    String.not_lt.mp fun hLt => List.not_lt.mpr hKeys (String.lt_iff_toList_lt.mp hLt)
  change (compare a.key b.key).isLE = true
  exact Std.LawfulBCmp.isLE_iff_le.mpr hOrder

/-- Of two prefixes of one request the deeper one has the longer key. -/
theorem key_shorter_of_depth_lt (har : a.isPrefixOf r = true) (hbr : b.isPrefixOf r = true)
    (h : a.depth < b.depth) :
    a.key.length < b.key.length ∧ a.key.utf8ByteSize < b.key.utf8ByteSize := by
  have hPrefix : a.isPrefixOf b = true := (isPrefixOf_total har hbr).resolve_right fun hba =>
    absurd (depth_le_of_isPrefixOf hba) (Nat.not_le_of_lt h)
  obtain ⟨behind, hBehind⟩ := key_prefix_iff.mpr hPrefix
  have hKey : b.key = a.key ++ String.ofList behind :=
    String.ext (by rw [String.toList_append, String.toList_ofList, hBehind])
  have hSome : String.ofList behind ≠ "" := fun hNil => by
    rw [hNil, String.append_empty] at hKey
    exact Nat.lt_irrefl _ (key_injective hKey ▸ h)
  have hSize : (String.ofList behind).utf8ByteSize ≠ 0 := String.utf8ByteSize_eq_zero_iff.not.mpr hSome
  have hLength : (String.ofList behind).length ≠ 0 := String.length_eq_zero_iff.not.mpr hSome
  rw [hKey, String.length_append, String.utf8ByteSize_append]
  omega

theorem prefixKeys_pairwise_shorter (r : Request) : r.prefixKeys.Pairwise fun longer shorter =>
    shorter.length < longer.length ∧ shorter.utf8ByteSize < longer.utf8ByteSize := by
  rw [prefixKeys_eq, List.pairwise_map, List.pairwise_reverse]
  exact r.ancestors_pairwise_depth.imp_of_mem fun ha hb hDepth =>
    key_shorter_of_depth_lt (mem_ancestors.mp ha) (mem_ancestors.mp hb) hDepth

end Request

/-- A request is a prefix of another exactly if its key is a beginning of the other's key, and exactly if
its key is one of those that are cut out of the other's. These are as many as the other has segments, and
one more, and grow shorter, and each is read as a prefix of the other. To be a prefix is a partial order,
which the order of requests follows, and any two prefixes of a request are comparable in it. -/
theorem prefixes_are_read_off_keys (a b r : Request) :
    (a.isPrefixOf r = true ↔ a.key.toList <+: r.key.toList) ∧
    (a.isPrefixOf r = true ↔ a.key ∈ r.prefixKeys) ∧
    (r.prefixKeys.length = r.depth + 1 ∧
      (r.prefixKeys.Pairwise fun longer shorter =>
        shorter.length < longer.length ∧ shorter.utf8ByteSize < longer.utf8ByteSize) ∧
      ∀ key ∈ r.prefixKeys, ∃ ancestor, Request.parse key = .ok ancestor ∧ ancestor.isPrefixOf r = true) ∧
    r.isPrefixOf r = true ∧
    (a.isPrefixOf b = true → b.isPrefixOf r = true → a.isPrefixOf r = true) ∧
    (a.isPrefixOf r = true → r.isPrefixOf a = true → a = r) ∧
    (a.isPrefixOf r = true → (compare a r).isLE = true) ∧
    (a.isPrefixOf r = true → b.isPrefixOf r = true → a.isPrefixOf b = true ∨ b.isPrefixOf a = true) :=
  ⟨Request.key_prefix_iff.symm, Request.mem_prefixKeys_iff.symm,
    ⟨r.length_prefixKeys, r.prefixKeys_pairwise_shorter, fun _ => Request.exists_of_mem_prefixKeys⟩,
    r.isPrefixOf_refl, Request.isPrefixOf_trans, Request.isPrefixOf_antisymm,
    Request.isLE_compare_of_isPrefixOf, Request.isPrefixOf_total⟩

namespace Sample

def b1 : Segment := ⟨"b1", "b1", by decide, List.all_eq_true.mp (by decide), by decide⟩

def b2 : Segment := ⟨"b2", "b2", by decide, List.all_eq_true.mp (by decide), by decide⟩

/-- One segment, which begins like another and goes on with an escaped slash. -/
def longer : Segment := ⟨"b2%2Fx", "b2/x", by decide, List.all_eq_true.mp (by decide), rfl⟩

end Sample

theorem prefixes_are_read_off_keys_longer :
    let first : Request := ⟨.get, [Sample.b1]⟩
    let second : Request := ⟨.get, [Sample.b1, Sample.b2]⟩
    let request : Request := ⟨.get, [Sample.b1, Sample.b2, Sample.longer]⟩
    first.isPrefixOf second = true ∧ second.isPrefixOf request = true ∧ first.isPrefixOf request = true ∧
    (compare second request).isLE = true ∧ request.prefixKeys.length = 4 ∧
    ¬second.key.toList <+: (Request.mk .get [Sample.b1, Sample.longer]).key.toList := by
  intro first second request
  obtain ⟨-, -, ⟨hLength, -⟩, -, hTrans, -⟩ := prefixes_are_read_off_keys first second request
  obtain ⟨-, -, -, -, -, -, hOrder, -⟩ := prefixes_are_read_off_keys second first request
  obtain ⟨hKeys, -⟩ := prefixes_are_read_off_keys second first ⟨.get, [Sample.b1, Sample.longer]⟩
  exact ⟨by decide, by decide, hTrans (by decide) (by decide), hOrder (by decide), hLength,
    fun h => absurd (hKeys.mpr h) (by decide)⟩

end Switchyard.Rest
