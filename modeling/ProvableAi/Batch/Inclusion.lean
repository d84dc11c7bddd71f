/-
# Inclusion proofs, complete and sound

`compute_inclusion_proof` and `verify_inclusion_proof` of `audit_batch.py`, and the
root as the stand-alone `verify/verify_batch.py` computes it, with its loop and
its indices (`buildMerkleRoot_eq`).

`inclusion_complete`: every id of a batch has a proof that verifies, in whatever
order the ids come.

`inclusion_sound`: a proof that verifies for the digest of an id is one of an id
of the batch, or joins on its way the very bytes of one.  The walk is compared
with the tree from the root down; leaves and nodes are hashed alike and a sibling
may have any length, so it can leave the tree through a leaf (`leaf_extended`).
-/

import ProvableAi.Batch.Binding

namespace ProvableAi
namespace Batch

open Merkle

/-! ### The stand-alone root -/

/-- `next_level` of `build_merkle_root`: `for i in range(0, len(current), 2)`. -/
def nextLevel (current : List String) : List String :=
  (List.range (current.length / 2)).map fun k => parent (current.getD (2 * k) "") (current.getD (2 * k + 1) "")

/-- `current.append(current[-1])` where the count is odd. -/
def evenLevel (current : List String) : List String :=
  if current.length % 2 = 1 then current ++ [current.getLastD ""] else current

/-- `while len(current) > 1`. -/
def buildLevels (current : List String) : List String :=
  if 1 < current.length then buildLevels (nextLevel (evenLevel current)) else current
termination_by current.length
decreasing_by
  simp only [nextLevel, evenLevel, List.length_map, List.length_range]
  split_ifs
  · simp only [List.length_append, List.length_singleton]
    omega
  · omega

/-- `build_merkle_root`. -/
def buildMerkleRoot (proofIds : List String) : String :=
  if proofIds.isEmpty then emptyRoot else (buildLevels (leaves proofIds)).headD ""

theorem evenLevel_eq_pad (l : List String) : evenLevel l = pad l := by
  rw [evenLevel, pad]
  split_ifs with h
  · have hne : l ≠ [] := by rintro rfl; simp at h
    rw [List.getLast?_eq_some_getLast hne, List.getLastD_eq_getLast?, List.getLast?_eq_some_getLast hne]
    rfl
  · rfl

theorem nextLevel_eq (l : List String) : nextLevel l = (neighbours l).map fun p => parent p.1 p.2 := by
  induction l using neighbours.induct with
  | case1 => rfl
  | case2 a => simp [nextLevel, neighbours]
  | case3 a b l ih =>
    have hlen : (a :: b :: l).length / 2 = l.length / 2 + 1 := by
      simp only [List.length_cons]
      omega
    rw [neighbours, List.map_cons, ← ih, nextLevel, hlen, List.range_succ_eq_map, List.map_cons, List.map_map]
    rfl

/-- The loop is the climb up the tree. -/
theorem buildLevels_eq_climb {n : ℕ} : ∀ {l : List String}, l.length ≤ n → buildLevels l = climb parent n l := by
  induction n with
  | zero =>
    intro l hl
    rw [buildLevels, if_neg (by omega)]
    rfl
  | succ n ih =>
    intro l hl
    rw [buildLevels, climb, evenLevel_eq_pad, nextLevel_eq]
    split_ifs with h
    · have hup := up_length parent l
      exact ih (l := up parent l) (by omega)
    · rfl

/-- **The stand-alone program computes the same root.** -/
theorem buildMerkleRoot_eq (ids : List String) : buildMerkleRoot ids = merkleRoot ids := by
  rw [buildMerkleRoot, merkleRoot, topOf, buildLevels_eq_climb le_rfl]
  split_ifs
  · rfl
  · cases climb parent (leaves ids).length (leaves ids) <;> rfl

/-! ### Completeness -/

/-- Sorting forgets the order. -/
theorem sortedIds_eq_of_perm {ids ids' : List String} (h : ids.Perm ids') : sortedIds ids = sortedIds ids' := by
  refine List.Perm.eq_of_pairwise (fun a b _ _ hab hba => le_antisymm hab hba)
    (List.pairwise_insertionSort (· ≤ ·) ids) (List.pairwise_insertionSort (· ≤ ·) ids') ?_
  exact (List.perm_insertionSort _ ids).trans (h.trans (List.perm_insertionSort _ ids').symm)

/-- The root does not depend on the order of the ids … -/
theorem merkleRoot_perm {ids ids' : List String} (h : ids.Perm ids') : merkleRoot ids = merkleRoot ids' := by
  rw [merkleRoot, merkleRoot, leaves, leaves, sortedIds_eq_of_perm h, h.isEmpty_eq]

/-- … and an inclusion proof does not either. -/
theorem computeInclusionProof_perm {ids ids' : List String} (h : ids.Perm ids') (t : String) (batch : Option Json) :
    computeInclusionProof ids t batch = computeInclusionProof ids' t batch := by
  rw [computeInclusionProof, computeInclusionProof, leaves, leaves, sortedIds_eq_of_perm h, h.isEmpty_eq]

/-- The root in an inclusion proof is that of the ids. -/
theorem computeInclusionProof_root {ids : List String} {t : String} {batch : Option Json} {proof : MerkleInclusionProof}
    (h : computeInclusionProof ids t batch = .ok proof) : proof.root = merkleRoot ids := by
  rw [computeInclusionProof] at h
  split_ifs at h with hne hmem
  have hids : ids ≠ [] := by simpa using hne
  have htop := (climb_leaves hids).2.1
  cases hb : batch.filter Json.truthy with
  | none =>
    rw [hb] at h
    obtain rfl := Except.ok.inj h
    exact htop
  | some b =>
    simp only [hb, bind_eq_ok_iff] at h
    obtain ⟨_, _, _, _, _, _, _, _, _, _, h⟩ := h
    obtain rfl := Except.ok.inj h
    exact htop

/-- The inclusion proof of an id, alone or bound to a batch of its root. -/
theorem computeInclusionProof_ok {ed : Ed25519} {ids : List String} {t : String} (ht : t ∈ ids) {batch : Option Json}
    (hb : ∀ b ∈ batch, Binds ed b ids) :
    ∃ proof, computeInclusionProof ids t batch = .ok proof ∧ verifyInclusionProof ed proof = true := by
  cases batch with
  | some b => exact computeInclusionProof_verified (hb b rfl) ht
  | none =>
    have hne := List.ne_nil_of_mem ht
    have htop := (climb_leaves hne).2.1
    refine ⟨⟨sha256Hex t, (leaves ids).idxOf (sha256Hex t),
      path parent (leaves ids).length (leaves ids) ((leaves ids).idxOf (sha256Hex t)), topOf (leaves ids),
      .str (topOf (leaves ids)), .str "", .str "", .str ""⟩, ?_, ?_⟩
    · rw [computeInclusionProof, if_neg (by simpa using hne), if_neg (by simpa [mem_sortedIds] using ht)]
      rfl
    · simp [verifyInclusionProof, walk_path ht, htop, Json.truthy]

/-- **Inclusion proofs are complete.**  Every id of a list has one, with the root of the
list, that verifies; root and proofs do not depend on the order of the list, and the
stand-alone program has the same root. -/
theorem inclusion_complete {ed : Ed25519} {ids : List String} {t : String} (ht : t ∈ ids) {batch : Option Json}
    (hb : ∀ b ∈ batch, Binds ed b ids) :
    (∃ proof, computeInclusionProof ids t batch = .ok proof ∧ proof.root = merkleRoot ids ∧
        verifyInclusionProof ed proof = true) ∧
      (∀ ids', ids.Perm ids' → merkleRoot ids' = merkleRoot ids ∧
        computeInclusionProof ids' t batch = computeInclusionProof ids t batch) ∧
      buildMerkleRoot ids = merkleRoot ids := by
  obtain ⟨proof, hproof, hver⟩ := computeInclusionProof_ok ht hb
  exact ⟨⟨proof, hproof, computeInclusionProof_root hproof, hver⟩,
    fun ids' h => ⟨(merkleRoot_perm h).symm, (computeInclusionProof_perm h t batch).symm⟩, buildMerkleRoot_eq ids⟩

/-! ### Soundness -/

/-- The bytes that a step of the walk joins; nothing where `bytes.fromhex` raises. -/
def joinStep (current : String) (step : Merkle.Step String) : Option Bytes := do
  let sibling ← fromHex step.hash
  let current ← fromHex current
  some (match step.position with
    | .left => sibling ++ current
    | .right => current ++ sibling)

/-- The bytes that are joined on a walk. -/
def walkMessages (current : String) : List (Merkle.Step String) → List Bytes
  | [] => []
  | step :: path =>
    match joinStep current step with
    | none => []
    | some m => m :: walkMessages (toHex (sha256 m)) path

/-- The bytes that are joined for the nodes of the tree. -/
def nodeMessages (ids : List String) : Set Bytes :=
  {m | ∃ p ∈ joined parent (leaves ids).length (leaves ids), m = joinedBytes p}

theorem walk_eq_joinStep (current : String) (step : Merkle.Step String) :
    walk current step = (joinStep current step).map fun m => toHex (sha256 m) := by
  rw [walk, joinStep]
  cases hs : fromHex step.hash <;> cases hc : fromHex current <;> cases step.position <;> simp [parent?, hs, hc]

/-- A node of the tree is the digest of an id, or of two nodes of it. -/
theorem node_cases {ids : List String} {x : String} (h : x ∈ nodes parent (leaves ids).length (leaves ids)) :
    (∃ t ∈ ids, x = sha256Hex t) ∨
      ∃ p ∈ joined parent (leaves ids).length (leaves ids), (IsDigest p.1 ∧ IsDigest p.2) ∧
        x = toHex (sha256 (joinedBytes p)) := by
  rcases mem_nodes h with h | ⟨p, hp, rfl⟩
  · obtain ⟨t, ht, rfl⟩ := mem_leaves.1 h
    exact .inl ⟨t, ht, rfl⟩
  · have hd := joined_digests ids p hp
    exact .inr ⟨p, hp, hd, hd.1.parent_eq hd.2⟩

/-- A step that joins the bytes of two nodes comes from one of them. -/
theorem joinStep_of_joined {current : String} {step : Merkle.Step String} {p : String × String}
    (hc : IsDigest current) (hp : IsDigest p.1 ∧ IsDigest p.2) (h : joinStep current step = some (joinedBytes p)) :
    current = p.1 ∨ current = p.2 := by
  obtain ⟨c, hclen, rfl⟩ := hc
  obtain ⟨⟨a, ha, hpa⟩, b, hb, hpb⟩ := hp
  simp only [joinStep, joinedBytes, hpa, hpb, fromHex_toHex, Option.getD_some, Option.bind_eq_bind,
    Option.bind_eq_some_iff, Option.some.injEq] at h
  obtain ⟨sibling, -, _, rfl, h⟩ := h
  have hlen := congrArg List.length h
  cases hpos : step.position with
  | left =>
    simp only [hpos, List.length_append] at h hlen
    obtain ⟨-, rfl⟩ := List.append_inj h (by omega)
    exact .inr hpb.symm
  | right =>
    simp only [hpos, List.length_append] at h hlen
    obtain ⟨rfl, -⟩ := List.append_inj h (by omega)
    exact .inl hpa.symm

/-- **A walk that ends in the tree** started in it, or joined the bytes of an id. -/
theorem walk_in_tree {ids : List String} {path : List (Merkle.Step String)} : ∀ {current x : String},
    IsDigest current →
    CollisionFreeBytes (treeMessages ids ∪ {m | m ∈ walkMessages current path}) →
    path.foldlM walk current = some x → x ∈ nodes parent (leaves ids).length (leaves ids) →
    current ∈ nodes parent (leaves ids).length (leaves ids) ∨ ∃ t ∈ ids, utf8 t ∈ walkMessages current path := by
  induction path with
  | nil =>
    intro current x _ _ hw hx
    obtain rfl := Option.some.inj hw
    exact .inl hx
  | cons step path ih =>
    intro current x hc hsha hw hx
    rw [List.foldlM_cons, walk_eq_joinStep] at hw
    obtain ⟨y, hy, hw⟩ := Option.bind_eq_some_iff.1 hw
    obtain ⟨m, hm, rfl⟩ := Option.map_eq_some_iff.1 hy
    have hmsg : walkMessages current (step :: path) = m :: walkMessages (toHex (sha256 m)) path := by
      rw [walkMessages, hm]
    rw [hmsg] at hsha ⊢
    have hmem : m ∈ treeMessages ids ∪ {m' | m' ∈ m :: walkMessages (toHex (sha256 m)) path} :=
      .inr (List.mem_cons_self ..)
    have hsha' : CollisionFreeBytes (treeMessages ids ∪ {m' | m' ∈ walkMessages (toHex (sha256 m)) path}) :=
      hsha.mono (Set.union_subset_union_right _ fun _ h => List.mem_cons_of_mem _ h)
    rcases ih ⟨_, sha256_length m, rfl⟩ hsha' hw hx with hnode | ⟨t, ht, hin⟩
    · -- the node that the step makes is a leaf, or the parent of two nodes
      rcases node_cases hnode with ⟨t, ht, heq⟩ | ⟨p, hp, hd, heq⟩
      · have h : m = utf8 t := hsha hmem (.inl (.inl ⟨t, ht, rfl⟩)) (toHex_inj.1 heq)
        exact .inr ⟨t, ht, h ▸ List.mem_cons_self ..⟩
      · have h : m = joinedBytes p := hsha hmem (.inl (.inr ⟨p, hp, rfl⟩)) (toHex_inj.1 heq)
        have hnodes := nodes_of_mem_joined hp
        rcases joinStep_of_joined hc hd (h ▸ hm) with rfl | rfl
        · exact .inl hnodes.1
        · exact .inl hnodes.2
    · exact .inr ⟨t, ht, List.mem_cons_of_mem _ hin⟩

/-- What `verify_inclusion_proof` has checked when it accepts. -/
theorem walk_of_verify {ed : Ed25519} {proof : MerkleInclusionProof} (h : verifyInclusionProof ed proof = true) :
    proof.path.foldlM walk proof.leafHash = some proof.root := by
  rw [verifyInclusionProof] at h
  cases hw : proof.path.foldlM walk proof.leafHash with
  | none => simp [hw] at h
  | some current =>
    simp only [hw] at h
    split_ifs at h with hne <;> rw [not_not.1 hne]

/-- **Inclusion proofs are sound, as far as the tree goes.**  Where SHA-256 does not collide
on what is hashed and the bytes of the id are not two joined digests of the tree, a
proof that verifies for an id is one of an id of the list, or a step of its walk
joins exactly the bytes of an id of the list. -/
theorem inclusion_sound {ed : Ed25519} {ids : List String} (hne : ids ≠ []) {p : String} {proof : MerkleInclusionProof}
    (hleaf : proof.leafHash = sha256Hex p) (hroot : proof.root = merkleRoot ids)
    (hsha : CollisionFreeBytes (treeMessages ids ∪ {m | m = utf8 p ∨ m ∈ walkMessages proof.leafHash proof.path}))
    (hdomain : utf8 p ∉ nodeMessages ids) (hver : verifyInclusionProof ed proof = true) :
    p ∈ ids ∨ ∃ t ∈ ids, utf8 t ∈ walkMessages proof.leafHash proof.path := by
  have hw := walk_of_verify hver
  have hx : proof.root ∈ nodes parent (leaves ids).length (leaves ids) := by
    rw [hroot]
    exact climb_subset_nodes (by rw [(climb_leaves hne).1]; exact List.mem_singleton_self _)
  have hsha' : CollisionFreeBytes (treeMessages ids ∪ {m | m ∈ walkMessages proof.leafHash proof.path}) :=
    hsha.mono (Set.union_subset_union_right _ fun _ h => Or.inr h)
  rcases walk_in_tree (hleaf ▸ isDigest_sha256Hex p) hsha' hw hx with hnode | hin
  · rw [hleaf] at hnode
    rcases node_cases hnode with ⟨t, ht, heq⟩ | ⟨q, hq, -, heq⟩
    · have h : utf8 p = utf8 t := hsha (.inr (.inl rfl)) (.inl (.inl ⟨t, ht, rfl⟩)) (toHex_inj.1 heq)
      exact .inl (utf8_inj.1 h ▸ ht)
    · have h : utf8 p = joinedBytes q := hsha (.inr (.inl rfl)) (.inl (.inr ⟨q, hq, rfl⟩)) (toHex_inj.1 heq)
      exact absurd ⟨q, hq, h⟩ hdomain
  · exact .inr hin

/-- **What leaves the tree through a leaf.**  A walk that joins the bytes of an id at its end
goes on to the root of every list that has the id, and the proof verifies. -/
theorem leaf_extended (ed : Ed25519) {ids : List String} {t : String} (ht : t ∈ ids) {leafHash : String}
    {path : List (Merkle.Step String)} (hw : path.foldlM walk leafHash = some (sha256Hex t)) :
    ∃ proof : MerkleInclusionProof, proof.leafHash = leafHash ∧ proof.root = merkleRoot ids ∧ path <+: proof.path ∧
      verifyInclusionProof ed proof = true := by
  refine ⟨⟨leafHash, 0, path ++ Merkle.path parent (leaves ids).length (leaves ids) ((leaves ids).idxOf (sha256Hex t)),
    merkleRoot ids, .str (merkleRoot ids), .str "", .str "", .str ""⟩, rfl, rfl, List.prefix_append _ _, ?_⟩
  have hall : (path ++ Merkle.path parent (leaves ids).length (leaves ids)
      ((leaves ids).idxOf (sha256Hex t))).foldlM walk leafHash = some (merkleRoot ids) := by
    rw [List.foldlM_append, hw]
    exact walk_path ht
  simp [verifyInclusionProof, hall, Json.truthy]

/-! ### Small trees -/

theorem leaves_single (t : String) : leaves [t] = [sha256Hex t, sha256Hex t] := rfl

/-- A list of one id has one node above its leaf. -/
theorem nodeMessages_single (t : String) : nodeMessages [t] = {sha256 (utf8 t) ++ sha256 (utf8 t)} := by
  ext m
  simp [nodeMessages, leaves_single, joined, pad, neighbours, up, joinedBytes]

theorem merkleRoot_single (t : String) : merkleRoot [t] = toHex (sha256 (sha256 (utf8 t) ++ sha256 (utf8 t))) := by
  have hroot : merkleRoot [t] = parent (sha256Hex t) (sha256Hex t) := by
    simp [merkleRoot, leaves_single, topOf, climb, up, pad, neighbours]
  rw [hroot, sha256Hex, parent_toHex]

/-- Joined nodes have 64 bytes. -/
theorem nodeMessages_length {ids : List String} {m : Bytes} (h : m ∈ nodeMessages ids) : m.length = 64 := by
  obtain ⟨p, hp, rfl⟩ := h
  obtain ⟨⟨a, ha, hpa⟩, b, hb, hpb⟩ := joined_digests ids p hp
  rw [joinedBytes, hpa, hpb, fromHex_toHex, fromHex_toHex, Option.getD_some, Option.getD_some, List.length_append, ha, hb]

/-- Every id of four, one of them twice, has a proof that verifies. -/
theorem inclusion_complete_four :
    (∃ proof, computeInclusionProof ["c", "a", "b", "a"] "a" none = .ok proof ∧
        proof.root = merkleRoot ["c", "a", "b", "a"] ∧ verifyInclusionProof (fun _ _ _ => false) proof = true) ∧
      (∀ ids', ["c", "a", "b", "a"].Perm ids' → merkleRoot ids' = merkleRoot ["c", "a", "b", "a"] ∧
        computeInclusionProof ids' "a" none = computeInclusionProof ["c", "a", "b", "a"] "a" none) ∧
      buildMerkleRoot ["c", "a", "b", "a"] = merkleRoot ["c", "a", "b", "a"] :=
  inclusion_complete (by simp) (by simp)

/-! An id whose bytes are the digest of another text. -/

section

variable {d t : String}

/-- The proof of the only id of a list, entered below its leaf. -/
def enteredProof (d t : String) : MerkleInclusionProof :=
  ⟨sha256Hex d, 0, [⟨"", .right⟩, ⟨sha256Hex t, .right⟩], merkleRoot [t], .str (merkleRoot [t]), .str "", .str "",
    .str ""⟩

theorem fromHex_empty : fromHex "" = some [] := by decide

theorem enteredProof_messages (h : utf8 t = sha256 (utf8 d)) :
    walkMessages (sha256Hex d) (enteredProof d t).path = [utf8 t, sha256 (utf8 t) ++ sha256 (utf8 t)] := by
  have h₁ : joinStep (sha256Hex d) ⟨"", .right⟩ = some (utf8 t) := by simp [joinStep, fromHex_empty, h]
  have h₂ : joinStep (toHex (sha256 (utf8 t))) ⟨sha256Hex t, .right⟩ = some (sha256 (utf8 t) ++ sha256 (utf8 t)) := by
    simp [joinStep]
  simp only [enteredProof, walkMessages, h₁, h₂]

/-- Its walk ends in the root. -/
theorem enteredProof_verified (ed : Ed25519) (h : utf8 t = sha256 (utf8 d)) :
    verifyInclusionProof ed (enteredProof d t) = true := by
  have h₁ : walk (sha256Hex d) ⟨"", .right⟩ = some (sha256Hex t) := by
    have hleaf : sha256Hex t = toHex (sha256 (sha256 (utf8 d))) := by rw [← h]; rfl
    rw [walk_eq_joinStep, hleaf]
    simp [joinStep, fromHex_empty]
  have h₂ : walk (sha256Hex t) ⟨sha256Hex t, .right⟩ = some (merkleRoot [t]) := by
    rw [walk_eq_joinStep, merkleRoot_single]
    simp [joinStep]
  have hw : (enteredProof d t).path.foldlM walk (enteredProof d t).leafHash = some (merkleRoot [t]) := by
    simp [enteredProof, h₁, h₂]
  rw [verifyInclusionProof, hw]
  simp [enteredProof, Json.truthy]

/-- What is hashed for the tree and on the walk. -/
def enteredMessages (d t : String) : Set Bytes :=
  treeMessages [t] ∪ {m | m = utf8 d ∨ m ∈ walkMessages (enteredProof d t).leafHash (enteredProof d t).path}

theorem mem_enteredMessages (h : utf8 t = sha256 (utf8 d)) {m : Bytes} (hm : m ∈ enteredMessages d t) :
    m = utf8 t ∨ m = sha256 (utf8 t) ++ sha256 (utf8 t) ∨ m = utf8 d := by
  rcases hm with (⟨u, hu, rfl⟩ | hm) | rfl | hm
  · exact .inl (by rw [List.mem_singleton.1 hu])
  · have hm : m ∈ nodeMessages [t] := hm
    rw [nodeMessages_single] at hm
    exact .inr (.inl hm)
  · exact .inr (.inr rfl)
  · have hmsg : m ∈ [utf8 t, sha256 (utf8 t) ++ sha256 (utf8 t)] := enteredProof_messages h ▸ hm
    simp only [List.mem_cons, List.not_mem_nil, or_false] at hmsg
    exact hmsg.imp_right .inl

/-- A text that is the digest of another, the three byte strings hashed around them with
three digests. -/
structure Entered (d t : String) : Prop where
  digest : utf8 t = sha256 (utf8 d)
  leaf_ne : sha256 (utf8 t) ≠ sha256 (utf8 d)
  root_ne : sha256 (sha256 (utf8 t) ++ sha256 (utf8 t)) ≠ sha256 (utf8 d)
  root_ne_leaf : sha256 (sha256 (utf8 t) ++ sha256 (utf8 t)) ≠ sha256 (utf8 t)

theorem Entered.free (h : Entered d t) : CollisionFreeBytes (enteredMessages d t) := by
  obtain ⟨hd, h₁, h₂, h₃⟩ := h
  intro a ha b hb hab
  rcases mem_enteredMessages hd ha with rfl | rfl | rfl <;> rcases mem_enteredMessages hd hb with rfl | rfl | rfl <;>
    first | rfl | exact absurd hab h₁ | exact absurd hab.symm h₁ | exact absurd hab h₂ | exact absurd hab.symm h₂ |
      exact absurd hab h₃ | exact absurd hab.symm h₃

end

/-- A text whose digest reads as UTF-8. -/
def digestedId : String := "207115490"

/-- The characters of its digest. -/
def digestChars : List Char :=
  [27, 51, 123, 119, 3, 74, 64, 85, 58, 12, 125, 32, 60, 124, 86, 4, 33, 12, 83, 38, 62, 11, 86, 48, 1476, 118, 68, 12,
    10, 39, 113].map Char.ofNat

/-- Its digest, as a text. -/
def digestId : String := String.ofList digestChars

/-- The bytes of the digest. -/
def digestBytes : Bytes :=
  [0x1b, 0x33, 0x7b, 0x77, 0x03, 0x4a, 0x40, 0x55, 0x3a, 0x0c, 0x7d, 0x20, 0x3c, 0x7c, 0x56, 0x04,
   0x21, 0x0c, 0x53, 0x26, 0x3e, 0x0b, 0x56, 0x30, 0xd7, 0x84, 0x76, 0x44, 0x0c, 0x0a, 0x27, 0x71]

/-- The bytes of the leaf. -/
def leafBytes : Bytes :=
  [0x7a, 0x76, 0xe8, 0x62, 0x80, 0x7e, 0xb2, 0xef, 0xfa, 0xea, 0x6f, 0x67, 0x8e, 0x4d, 0xc4, 0xd3,
   0xa2, 0x45, 0x9c, 0xa1, 0x2a, 0x3f, 0x97, 0x44, 0x6e, 0x92, 0xfb, 0xc4, 0xbd, 0xdd, 0xd2, 0xe5]

theorem utf8_digestId : utf8 digestId = digestBytes := by
  rw [digestId, utf8_ofList]
  decide

/-- The digests of the text, of its digest, and of the leaf with itself. -/
theorem digestId_digests : sha256 (utf8 digestedId) = digestBytes ∧ sha256 digestBytes = leafBytes ∧
    sha256 (leafBytes ++ leafBytes) =
      [0x86, 0xe4, 0xf8, 0x20, 0x4b, 0x52, 0x95, 0x10, 0xdf, 0xec, 0x6a, 0xa2, 0x5b, 0xee, 0xf7, 0xd3,
       0x51, 0x6a, 0x87, 0xee, 0x77, 0xd6, 0x3c, 0x50, 0x71, 0x87, 0x14, 0x97, 0x8b, 0xf1, 0x97, 0x20] := by
  decide +kernel

theorem digestId_eq : utf8 digestId = sha256 (utf8 digestedId) := by rw [utf8_digestId, digestId_digests.1]

theorem digestId_entered : Entered digestedId digestId where
  digest := digestId_eq
  leaf_ne := by
    rw [utf8_digestId, digestId_digests.2.1, digestId_digests.1]
    decide
  root_ne := by
    rw [utf8_digestId, digestId_digests.2.1, digestId_digests.2.2, digestId_digests.1]
    decide
  root_ne_leaf := by
    rw [utf8_digestId, digestId_digests.2.1, digestId_digests.2.2]
    decide

theorem digestId_length : (utf8 digestId).length = 32 := by
  rw [utf8_digestId]
  rfl

theorem digestedId_length : (utf8 digestedId).length = 9 := by decide

/-- The walk joins the bytes of the id. -/
theorem inclusion_sound_entered :
    digestedId ∈ [digestId] ∨
      ∃ t ∈ [digestId], utf8 t ∈ walkMessages (sha256Hex digestedId) (enteredProof digestedId digestId).path :=
  inclusion_sound (by simp) rfl rfl digestId_entered.free
    (fun h => by simpa [digestedId_length] using nodeMessages_length h)
    (enteredProof_verified (fun _ _ _ => false) digestId_eq)

/-- **A proof that verifies for an id that is not in the list.**  Nothing collides, and no id
has the 64 bytes of two digests. -/
theorem inclusion_entered :
    CollisionFreeBytes (enteredMessages digestedId digestId) ∧
      (∀ t ∈ [digestedId, digestId], (utf8 t).length ≠ 64) ∧
      (enteredProof digestedId digestId).leafHash = sha256Hex digestedId ∧
      (enteredProof digestedId digestId).root = merkleRoot [digestId] ∧
      verifyInclusionProof (fun _ _ _ => false) (enteredProof digestedId digestId) = true ∧ digestedId ∉ [digestId] := by
  refine ⟨digestId_entered.free, fun t ht => ?_, rfl, rfl, enteredProof_verified _ digestId_eq, fun h => ?_⟩
  · simp only [List.mem_cons, List.not_mem_nil, or_false] at ht
    rcases ht with rfl | rfl
    · rw [digestedId_length]
      decide
    · rw [digestId_length]
      decide
  · have hlen := congrArg (fun t => (utf8 t).length) (List.mem_singleton.1 h)
    simp only [digestedId_length, digestId_length] at hlen
    cases hlen

end Batch
end ProvableAi
