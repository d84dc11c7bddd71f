/-
# What a Merkle root commits to

The root of a list of proof ids against that of another list, of any length.

An id alone is doubled and the last node of an odd level is doubled with all that
is under it, so a list and a longer one that spells the copies out have one
root.  `paddedIds` is the list with every copy spelled out; `merkleRoot_eq_iff`
says that the root determines it, and nothing more.  So lists with one root
have the same ids (`mem_iff_of_merkleRoot`).
-/

import ProvableAi.Batch.Inclusion

namespace ProvableAi
namespace Batch

open Merkle

/-! ### The padding spelled out -/

/-- The ids of the leaves: sorted, a single one twice. -/
def leafIds (proofIds : List String) : List String :=
  if (sortedIds proofIds).length = 1 then sortedIds proofIds ++ sortedIds proofIds else sortedIds proofIds

/-- The ids that the full tree stands for. -/
def paddedIds (proofIds : List String) : List String := full (Nat.clog 2 (leafIds proofIds).length) (leafIds proofIds)

theorem leaves_eq_map (ids : List String) : leaves ids = (leafIds ids).map sha256Hex := by
  rw [leaves, leafIds, List.length_map]
  split_ifs
  · rw [List.map_append]
  · rfl

theorem mem_leafIds {ids : List String} {t : String} : t ∈ leafIds ids ↔ t ∈ ids := by
  rw [leafIds]
  split_ifs
  · rw [List.mem_append, or_self, mem_sortedIds]
  · exact mem_sortedIds

theorem mem_paddedIds {ids : List String} {t : String} : t ∈ paddedIds ids ↔ t ∈ ids := mem_full.trans mem_leafIds

theorem paddedIds_ne_nil {ids : List String} (h : ids ≠ []) : paddedIds ids ≠ [] := by
  obtain ⟨t, ht⟩ := List.exists_mem_of_ne_nil ids h
  exact List.ne_nil_of_mem (mem_paddedIds.2 ht)

theorem leafIds_ne_nil {ids : List String} (h : ids ≠ []) : leafIds ids ≠ [] := by
  obtain ⟨t, ht⟩ := List.exists_mem_of_ne_nil ids h
  exact List.ne_nil_of_mem (mem_leafIds.2 ht)

/-- The height of the tree. -/
def height (ids : List String) : ℕ := Nat.clog 2 (leafIds ids).length

theorem length_paddedIds {ids : List String} (h : ids ≠ []) : (paddedIds ids).length = 2 ^ height ids :=
  length_full (leafIds_ne_nil h) rfl

/-- The padded ids have one digest each in the full tree. -/
theorem full_leaves (ids : List String) : full (height ids) (leaves ids) = (paddedIds ids).map sha256Hex := by
  rw [leaves_eq_map, full_map]
  rfl

/-- The root is the top of the tree. -/
theorem merkleRoot_eq_iterate {ids : List String} (h : ids ≠ []) :
    (up parent)^[height ids] (leaves ids) = [merkleRoot ids] := by
  rw [← (climb_leaves h).1, climb_eq_iterate (leaves_ne_nil h) le_rfl, leaves_eq_map, List.length_map]
  rfl

/-- The levels of a tree below its top are joined. -/
theorem mem_joined_level {ids : List String} {j : ℕ} {p : String × String} (hj : j < height ids)
    (hp : p ∈ neighbours (pad ((up parent)^[j] (leaves ids)))) : p ∈ joined parent (leaves ids).length (leaves ids) := by
  refine mem_joined le_rfl ?_ hp
  rw [leaves_eq_map, List.length_map]
  exact hj

/-! ### The root determines them -/

section

variable {xs ys : List String} (hsha : CollisionFreeBytes (treeMessages xs ∪ treeMessages ys))
include hsha

/-- The top of a tree, and the same nodes at the top of one that is at least as high: the
leaves of the one are a level of the other. -/
theorem full_level {d : ℕ} (hd : height ys = height xs + d) (hx : xs ≠ []) (hy : ys ≠ [])
    (h : merkleRoot xs = merkleRoot ys) :
    full (height xs) (leaves xs) = full (height xs) ((up parent)^[d] (leaves ys)) := by
  refine full_inj ((parent_injOn hsha).mono ?_) ?_
  · rintro p ⟨j, hj, hp | hp⟩
    · exact .inl (mem_joined_level hj hp)
    · rw [← Function.iterate_add_apply] at hp
      exact .inr (mem_joined_level (by omega) hp)
  · rw [merkleRoot_eq_iterate hx, ← Function.iterate_add_apply, ← hd, merkleRoot_eq_iterate hy, h]

/-- Where no id has the bytes of two joined nodes, trees with one root are equally high. -/
theorem height_le (hdomain : ∀ t ∈ xs, utf8 t ∉ nodeMessages ys) (hx : xs ≠ []) (hy : ys ≠ [])
    (h : merkleRoot xs = merkleRoot ys) : height ys ≤ height xs := by
  by_contra hlt
  obtain ⟨d, hd⟩ := Nat.exists_eq_add_of_lt (Nat.lt_of_not_le hlt)
  have hfull := full_level hsha (d := d + 1) (by omega) hx hy h
  obtain ⟨t, ht⟩ := List.exists_mem_of_ne_nil xs hx
  have hleaf : sha256Hex t ∈ full (height xs) (leaves xs) := mem_full.2 (mem_leaves.2 ⟨t, ht, rfl⟩)
  -- the digest of an id is a node above the leaves of the higher tree
  rw [hfull, mem_full, Function.iterate_succ_apply'] at hleaf
  obtain ⟨p, hp, heq⟩ := List.mem_map.1 hleaf
  have hjoined : p ∈ joined parent (leaves ys).length (leaves ys) := mem_joined_level (by omega) hp
  have hpd := joined_digests ys p hjoined
  simp only [hpd.1.parent_eq hpd.2, sha256Hex, toHex_inj] at heq
  exact hdomain t ht ⟨p, hjoined, (hsha (.inr (.inr ⟨p, hjoined, rfl⟩)) (.inl (.inl ⟨t, ht, rfl⟩)) heq).symm⟩

/-- **What a root commits to.**  Where SHA-256 does not collide on what is hashed for two
lists, gives neither the root of the empty list, and no id has the bytes of two
joined nodes, two lists have one root exactly if they are one with the padding
spelled out. -/
theorem merkleRoot_eq_iff (hdomain : ∀ t, t ∈ xs ∨ t ∈ ys → utf8 t ∉ nodeMessages xs ∪ nodeMessages ys)
    (hzero : ∀ ids, ids = xs ∨ ids = ys → ids ≠ [] → merkleRoot ids ≠ emptyRoot) :
    merkleRoot xs = merkleRoot ys ↔ paddedIds xs = paddedIds ys := by
  have hempty : merkleRoot [] = emptyRoot := rfl
  by_cases hx : xs = []
  · by_cases hy : ys = []
    · rw [hx, hy]
      simp
    · rw [hx, hempty]
      exact iff_of_false (hzero ys (.inr rfl) hy).symm fun h0 => paddedIds_ne_nil hy h0.symm
  · by_cases hy : ys = []
    · rw [hy, hempty]
      exact iff_of_false (hzero xs (.inl rfl) hx) (paddedIds_ne_nil hx)
    · constructor
      · intro h
        have hheight : height xs = height ys :=
          le_antisymm (height_le (Set.union_comm _ _ ▸ hsha) (fun t ht hm => hdomain t (.inr ht) (.inl hm)) hy hx h.symm)
            (height_le hsha (fun t ht hm => hdomain t (.inl ht) (.inr hm)) hx hy h)
        have hfull := full_level hsha (d := 0) (by omega) hx hy h
        rw [Function.iterate_zero, id_eq, full_leaves, hheight, full_leaves] at hfull
        refine map_inj_of_injOn ?_ hfull
        rintro s hs t ht hst
        have hmem : ∀ u, u ∈ paddedIds xs ∨ u ∈ paddedIds ys → utf8 u ∈ treeMessages xs ∪ treeMessages ys :=
          fun u hu => hu.imp (fun h => .inl ⟨u, mem_paddedIds.1 h, rfl⟩) fun h => .inl ⟨u, mem_paddedIds.1 h, rfl⟩
        exact utf8_inj.1 (hsha (hmem s hs) (hmem t ht) (toHex_inj.1 hst))
      · intro h
        have hpow : 2 ^ height xs = 2 ^ height ys := by rw [← length_paddedIds hx, h, length_paddedIds hy]
        have hheight := Nat.pow_right_injective le_rfl hpow
        have htop : [merkleRoot xs] = [merkleRoot ys] := by
          rw [← merkleRoot_eq_iterate hx, ← merkleRoot_eq_iterate hy, ← iterate_up_full, full_leaves, h, hheight,
            ← full_leaves, iterate_up_full]
        exact (List.cons.inj htop).1

end

/-! An id and the same id twice. -/

section

variable (x : String)

theorem leaves_twice : leaves [x, x] = leaves [x] := by simp [leaves, sortedIds]

theorem merkleRoot_twice : merkleRoot [x] = merkleRoot [x, x] := by
  rw [merkleRoot, merkleRoot, leaves_twice]
  rfl

theorem nodeMessages_twice : nodeMessages [x] ∪ nodeMessages [x, x] = {sha256 (utf8 x) ++ sha256 (utf8 x)} := by
  have htwice : nodeMessages [x, x] = nodeMessages [x] := by rw [nodeMessages, nodeMessages, leaves_twice]
  rw [htwice, Set.union_self, nodeMessages_single]

variable {x}

theorem mem_treeMessages_twice {m : Bytes} (h : m ∈ treeMessages [x] ∪ treeMessages [x, x]) :
    m = utf8 x ∨ m = sha256 (utf8 x) ++ sha256 (utf8 x) := by
  have hnode : m ∈ nodeMessages [x] ∪ nodeMessages [x, x] → m = sha256 (utf8 x) ++ sha256 (utf8 x) := fun h => by
    rwa [nodeMessages_twice] at h
  rcases h with (⟨t, ht, rfl⟩ | h) | ⟨t, ht, rfl⟩ | h
  · exact .inl (by rw [List.mem_singleton.1 ht])
  · exact .inr (hnode (.inl h))
  · have htx : t = x := by simpa using ht
    exact .inl (by rw [htx])
  · exact .inr (hnode (.inr h))

/-- Two byte strings with two digests. -/
theorem treeMessages_twice_free (h : sha256 (utf8 x) ≠ sha256 (sha256 (utf8 x) ++ sha256 (utf8 x))) :
    CollisionFreeBytes (treeMessages [x] ∪ treeMessages [x, x]) := by
  intro a ha b hb hab
  rcases mem_treeMessages_twice ha with rfl | rfl <;> rcases mem_treeMessages_twice hb with rfl | rfl <;>
    first | rfl | exact absurd hab h | exact absurd hab.symm h

end

/-- The characters of a proof id of the tests. -/
def sampleChars : List Char := List.replicate 64 'a'

/-- The proof id. -/
def sampleProofId : String := String.ofList sampleChars

/-- Its digest. -/
def sampleDigest : Bytes :=
  [0xff, 0xe0, 0x54, 0xfe, 0x7a, 0xe0, 0xcb, 0x6d, 0xc6, 0x5c, 0x3a, 0xf9, 0xb6, 0x1d, 0x52, 0x09,
   0xf4, 0x39, 0x85, 0x1d, 0xb4, 0x3d, 0x0b, 0xa5, 0x99, 0x73, 0x37, 0xdf, 0x15, 0x46, 0x68, 0xeb]

theorem utf8_sampleProofId : utf8 sampleProofId = List.replicate 64 0x61 := by
  rw [sampleProofId, utf8_ofList, sampleChars, List.flatMap_replicate]
  rfl

/-- The digests of the id, and of its leaf with itself. -/
theorem sampleProofId_digests : sha256 (utf8 sampleProofId) = sampleDigest ∧
    sha256 (sampleDigest ++ sampleDigest) =
      [0x72, 0xf1, 0x0d, 0x9f, 0xe2, 0x91, 0xa1, 0xf9, 0xcb, 0x70, 0xd7, 0x2a, 0xee, 0xf4, 0xca, 0x4e,
       0x8a, 0xd0, 0x65, 0x79, 0x6d, 0x79, 0x68, 0x0f, 0x23, 0xa8, 0x38, 0x20, 0x05, 0x12, 0x30, 0xf2] := by
  rw [utf8_sampleProofId]
  decide +kernel

theorem sampleProofId_free :
    CollisionFreeBytes (treeMessages [sampleProofId] ∪ treeMessages [sampleProofId, sampleProofId]) := by
  refine treeMessages_twice_free ?_
  rw [sampleProofId_digests.1, sampleProofId_digests.2]
  decide

theorem sampleProofId_domain (t : String) (h : t ∈ [sampleProofId] ∨ t ∈ [sampleProofId, sampleProofId]) :
    utf8 t ∉ nodeMessages [sampleProofId] ∪ nodeMessages [sampleProofId, sampleProofId] := by
  have ht : t = sampleProofId := by simpa using h
  rw [nodeMessages_twice, ht, Set.mem_singleton_iff, sampleProofId_digests.1, utf8_sampleProofId]
  decide

theorem sampleProofId_nonzero (ids : List String) (h : ids = [sampleProofId] ∨ ids = [sampleProofId, sampleProofId]) :
    merkleRoot ids ≠ emptyRoot := by
  have hroot : merkleRoot ids = merkleRoot [sampleProofId] := by
    rcases h with rfl | rfl
    · rfl
    · exact (merkleRoot_twice _).symm
  rw [hroot, merkleRoot_single, sampleProofId_digests.1, sampleProofId_digests.2, emptyRoot_eq, ne_eq, toHex_inj]
  decide

/-- The two lists are one with the padding spelled out. -/
theorem merkleRoot_eq_iff_twice :
    merkleRoot [sampleProofId] = merkleRoot [sampleProofId, sampleProofId] ↔
      paddedIds [sampleProofId] = paddedIds [sampleProofId, sampleProofId] :=
  merkleRoot_eq_iff sampleProofId_free sampleProofId_domain fun ids h _ => sampleProofId_nonzero ids h

/-- **Two lists with one root** that are not one up to order. -/
theorem merkleRoot_same :
    (sampleProofId.length = 64 ∧ sampleProofId.toList.all isLowerHex = true) ∧
      CollisionFreeBytes (treeMessages [sampleProofId] ∪ treeMessages [sampleProofId, sampleProofId]) ∧
      utf8 sampleProofId ∉ nodeMessages [sampleProofId] ∪ nodeMessages [sampleProofId, sampleProofId] ∧
      merkleRoot [sampleProofId] ≠ emptyRoot ∧ merkleRoot [sampleProofId] = merkleRoot [sampleProofId, sampleProofId] ∧
      sortedIds [sampleProofId] ≠ sortedIds [sampleProofId, sampleProofId] := by
  refine ⟨⟨by decide, by decide⟩, sampleProofId_free, sampleProofId_domain _ (.inl (List.mem_singleton_self _)),
    sampleProofId_nonzero _ (.inl rfl), merkleRoot_twice _, fun h => ?_⟩
  have hlen := congrArg List.length h
  rw [sortedIds_length, sortedIds_length] at hlen
  cases hlen

end Batch
end ProvableAi
