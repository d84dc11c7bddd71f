/-
# One id of a batch

`verify_proof_in_batch` of the stand-alone `verify/verify_batch.py`
(`--proof-id`): whether an id is in a batch, by an inclusion proof that the
program makes itself and passes to its own `verify_inclusion_proof`.

A batch that `verify_batch` accepts has every id it lists, and a batch with a
signature has no other member (`membership_iff`).  Where the signature or its
key is missing the two part: `verify_batch` refuses, and `verify_inclusion_proof`
leaves the check out, so the ids and a root that fits them are enough.
-/

import ProvableAi.Batch.Inclusion

namespace ProvableAi
namespace Batch

open Merkle

/-! ### The program -/

/-- The dict of an inclusion proof; what comes from the batch is any JSON. -/
structure InclusionDict where
  leafHash : String
  path : List (Merkle.Step String)
  root : Json
  signedRoot : Json
  signature : Json
  publicKey : Json

/-- `verify_inclusion_proof` of the stand-alone program. -/
def InclusionDict.verify (ed : Ed25519) (proof : InclusionDict) : Bool :=
  match proof.path.foldlM walk proof.leafHash with
  | none => false
  | some current =>
    if .str current ≠ proof.root then false
    else if proof.signedRoot.truthy ∧ .str current ≠ proof.signedRoot then false
    else if proof.signature.truthy ∧ proof.publicKey.truthy then
      verifyHexEd25519 ed proof.publicKey current proof.signature
    else true

/-- The loop that collects the siblings. -/
def membershipPath (current : List String) (idx : ℕ) : List (Merkle.Step String) :=
  if 1 < current.length then
    ⟨(evenLevel current).getD (idx ^^^ 1) "", if idx % 2 = 0 then .right else .left⟩ ::
      membershipPath (nextLevel (evenLevel current)) (idx / 2)
  else []
termination_by current.length
decreasing_by
  have hup := up_length parent current
  rw [evenLevel_eq_pad, nextLevel_eq, ← up]
  omega

/-- The dict that `verify_proof_in_batch` returns; two keys and `failure` are there in either case. -/
structure MembershipResult where
  valid : Bool
  proofId : Option String
  leafHash : Option String
  merkleRoot : Option Json
  failure : Option String

/-- `verify_proof_in_batch`. -/
def verifyProofInBatch (ed : Ed25519) (batch : Json) (targetProofId : String) : Except PyErr MembershipResult := do
  let proofs ← batch.getD "proofs" (.arr [])
  let items ← proofs.iter
  let embedded ← embeddedIds items
  if .str targetProofId ∉ embedded then
    pure ⟨false, none, none, none, some ("proof_id not found in batch (" ++ toString embedded.length ++ " proofs)")⟩
  else do
    let sigBlock ← batch.getD "merkle_signature" (.obj [])
    let root ← batch.getD "merkle_root" (.str "")
    let ids ← embedded.mapM idText
    let level := leaves ids
    let targetLeaf := sha256Hex targetProofId
    let path := membershipPath level (level.idxOf targetLeaf)
    let signature ← sigBlock.getD "value" (.str "")
    let publicKey ← sigBlock.getD "public_key" (.str "")
    let valid := InclusionDict.verify ed ⟨targetLeaf, path, root, root, signature, publicKey⟩
    pure ⟨valid, some targetProofId, some targetLeaf, some root, if valid then none else some "Inclusion proof failed"⟩

/-! ### What is compared -/

/-- `[p.get("proof_id") for p in proofs if p.get("proof_id")]` of a batch, where all of them are texts. -/
def readIds (batch : Json) : Except PyErr (List String) := do
  let proofs ← batch.getD "proofs" (.arr [])
  let items ← proofs.iter
  let embedded ← embeddedIds items
  embedded.mapM idText

/-- `--proof-id` exits with 0. -/
def Member (ed : Ed25519) (batch : Json) (targetProofId : String) : Prop :=
  ∃ r, verifyProofInBatch ed batch targetProofId = .ok r ∧ r.valid = true

/-- Without it, the program exits with 0. -/
def Verified (ed : Ed25519) (batch : Json) : Prop := ∃ r, verifyBatch ed batch = .ok r ∧ r.valid = true

/-- `merkle_signature` has no value or no public key. -/
structure Unsigned (batch : Json) : Prop where
  block_isObj : (sigBlock batch).isObj = true
  missing : ¬ ((((sigBlock batch).get? "value").getD (.str "")).truthy = true ∧
    (((sigBlock batch).get? "public_key").getD (.str "")).truthy = true)

/-- The stored root is that of the ids. -/
def RootFits (batch : Json) (ids : List String) : Prop :=
  (batch.get? "merkle_root").getD (.str "") = .str (merkleRoot ids)

/-! ### The path -/

theorem pad_getD {l : List String} {i : ℕ} {s : String} (h : (pad l)[i]? = some s) : (evenLevel l).getD i "" = s := by
  rw [evenLevel_eq_pad, List.getD_eq_getElem?_getD, h]
  rfl

/-- The loop collects the siblings of the climb. -/
theorem membershipPath_eq {n : ℕ} : ∀ {l : List String} {i : ℕ}, l.length ≤ n → i < l.length →
    membershipPath l i = path parent n l i := by
  induction n with
  | zero =>
    intro l i hl hi
    omega
  | succ n ih =>
    intro l i hl hi
    rw [membershipPath, path]
    by_cases h : 1 < l.length
    · rw [if_pos h, if_pos h]
      obtain ⟨s, hs, -⟩ := up_above parent (List.getElem?_eq_getElem hi)
      have hup := up_length parent l
      have hnext : nextLevel (evenLevel l) = up parent l := by rw [evenLevel_eq_pad, nextLevel_eq, up]
      rw [hs, pad_getD hs, hnext, ih (by omega) (by omega)]
    · rw [if_neg h, if_neg h]

/-- **The proof that the program makes leads to the root of the ids.** -/
theorem walk_membershipPath {ids : List String} {t : String} (ht : t ∈ ids) :
    (membershipPath (leaves ids) ((leaves ids).idxOf (sha256Hex t))).foldlM walk (sha256Hex t) =
      some (merkleRoot ids) := by
  have hmem : sha256Hex t ∈ leaves ids := mem_leaves.2 ⟨t, ht, rfl⟩
  rw [membershipPath_eq le_rfl (List.idxOf_lt_length_iff.2 hmem), walk_path ht]

/-- What the check of such a proof says of the root and the signature. -/
theorem verify_walked {ed : Ed25519} {leafHash r : String} {path : List (Merkle.Step String)}
    (hw : path.foldlM walk leafHash = some r) (root sig pub : Json) :
    InclusionDict.verify ed ⟨leafHash, path, root, root, sig, pub⟩ = true ↔
      root = .str r ∧ (sig.truthy = true ∧ pub.truthy = true → verifyHexEd25519 ed pub r sig = true) := by
  unfold InclusionDict.verify
  simp only [hw]
  by_cases hroot : root = .str r
  · subst hroot
    split_ifs with h₁ h₂ h₃
    · exact absurd rfl h₁
    · exact absurd rfl h₂.2
    · simp [h₃]
    · simp [h₃]
  · rw [if_pos fun h => hroot h.symm]
    simp [hroot]

/-! ### The two verifiers -/

theorem signatureFailure_eq_none {ed : Ed25519} {pub sig : Json} {root : String} (hroot : IsDigest root) :
    signatureFailure ed pub sig root = none ↔ verifyHexEd25519 ed pub root sig = true := by
  rw [verifyHex_iff hroot, signatureFailure]
  cases hp : hexBytes pub with
  | error e => simp
  | ok p =>
    cases hs : hexBytes sig with
    | error e => simp
    | ok s =>
      simp only [Except.ok.injEq, exists_eq_left']
      split_ifs with hed
      · simp [hed]
      · cases lengthFault p s <;> simp [hed]

theorem mem_of_mapM_idText {embedded : List Json} {ids : List String} (h : embedded.mapM idText = .ok ids) (t : String) :
    .str t ∈ embedded ↔ t ∈ ids := by
  have hforall := mapM_eq_ok.1 h
  induction hforall with
  | nil => simp
  | @cons e i es is hei hrest ih =>
    have he : e = .str i := by
      cases e with
      | str s => exact congrArg Json.str (Except.ok.inj hei)
      | _ => cases hei
    subst he
    simp [ih (mapM_eq_ok.2 hrest)]

section

variable {ed : Ed25519} {batch : Json}

theorem readIds_eq_ok {ids : List String} : readIds batch = .ok ids ↔ batch.isObj = true ∧ ∃ items embedded,
    ((batch.get? "proofs").getD (.arr [])).iter = .ok items ∧ embeddedIds items = .ok embedded ∧
      embedded.mapM idText = .ok ids := by
  simp only [readIds, bind_eq_ok_iff, Json.getD_eq_ok]
  constructor
  · rintro ⟨_, ⟨hobj, rfl⟩, items, hitems, embedded, hemb, hids⟩
    exact ⟨hobj, items, embedded, hitems, hemb, hids⟩
  · rintro ⟨hobj, items, embedded, hitems, hemb, hids⟩
    exact ⟨_, ⟨hobj, rfl⟩, items, hitems, embedded, hemb, hids⟩

/-- What `verify_batch` has checked when it accepts. -/
theorem verified_iff : Verified ed batch ↔ ∃ ids, readIds batch = .ok ids ∧ RootFits batch ids ∧
    (sigBlock batch).isObj = true ∧ ¬ Unsigned batch ∧
    verifyHexEd25519 ed (((sigBlock batch).get? "public_key").getD (.str "")) (merkleRoot ids)
      (((sigBlock batch).get? "value").getD (.str "")) = true := by
  constructor
  · rintro ⟨r, hr, hvalid⟩
    simp only [verifyBatch, bind_eq_ok_iff, Json.getD_eq_ok] at hr
    obtain ⟨_, ⟨hobj, rfl⟩, _, ⟨-, rfl⟩, _, ⟨-, rfl⟩, items, hitems, embedded, hemb, _, ⟨-, rfl⟩, ids, hids, hr⟩ := hr
    have hread := readIds_eq_ok.2 ⟨hobj, items, embedded, hitems, hemb, hids⟩
    split_ifs at hr with hroot
    · obtain ⟨text, -, hr⟩ := bind_eq_ok_iff.1 hr
      obtain rfl := Except.ok.inj hr
      cases hvalid
    · simp only [bind_eq_ok_iff, Json.getD_eq_ok] at hr
      obtain ⟨_, ⟨-, rfl⟩, _, ⟨hblock, rfl⟩, _, ⟨-, rfl⟩, hr⟩ := hr
      refine ⟨ids, hread, not_not.1 hroot, hblock, ?_⟩
      split_ifs at hr with hmissing
      · obtain rfl := Except.ok.inj hr
        cases hvalid
      · split at hr
        · obtain rfl := Except.ok.inj hr
          cases hvalid
        · rename_i hsig
          simp only [Bool.or_eq_true, Bool.not_eq_true', not_or, Bool.not_eq_false] at hmissing
          exact ⟨fun hun => hun.missing hmissing, (signatureFailure_eq_none (isDigest_merkleRoot ids)).1 hsig⟩
  · rintro ⟨ids, hread, hroot, hblock, hun, hsig⟩
    obtain ⟨hobj, items, embedded, hitems, hemb, hids⟩ := readIds_eq_ok.1 hread
    have hget : ∀ k d, batch.getD k d = .ok ((batch.get? k).getD d) := fun k d => Json.getD_eq_ok.2 ⟨hobj, rfl⟩
    have hsigned := not_not.1 (mt (Unsigned.mk hblock) hun)
    have hblockGet : ∀ k d, (sigBlock batch).getD k d = .ok (((sigBlock batch).get? k).getD d) :=
      fun k d => Json.getD_eq_ok.2 ⟨hblock, rfl⟩
    unfold sigBlock at hblockGet hsigned hsig
    rw [← signatureFailure_eq_none (isDigest_merkleRoot ids)] at hsig
    refine ⟨⟨true, true, true, embedded.length, (batch.get? "tenant_id").getD .null,
      (batch.get? "exported_at").getD .null, none⟩, ?_, rfl⟩
    have hfits : (batch.get? "merkle_root").getD (.str "") = .str (merkleRoot ids) := hroot
    simp only [verifyBatch, hget, hitems, hemb, hids, ok_bind, hfits, hblockGet, hsigned.1, hsigned.2, hsig, ne_eq,
      not_true_eq_false, if_false]
    rfl

/-- What the check of one id says. -/
theorem member_iff {t : String} : Member ed batch t ↔ ∃ ids, readIds batch = .ok ids ∧ t ∈ ids ∧ RootFits batch ids ∧
    (sigBlock batch).isObj = true ∧ (¬ Unsigned batch →
      verifyHexEd25519 ed (((sigBlock batch).get? "public_key").getD (.str "")) (merkleRoot ids)
        (((sigBlock batch).get? "value").getD (.str "")) = true) := by
  constructor
  · rintro ⟨r, hr, hvalid⟩
    simp only [verifyProofInBatch, bind_eq_ok_iff, Json.getD_eq_ok] at hr
    obtain ⟨_, ⟨hobj, rfl⟩, items, hitems, embedded, hemb, hr⟩ := hr
    split_ifs at hr with ht
    · simp only [bind_eq_ok_iff, Json.getD_eq_ok] at hr
      obtain ⟨_, ⟨-, rfl⟩, _, ⟨-, rfl⟩, ids, hids, _, ⟨hblock, rfl⟩, _, ⟨-, rfl⟩, hr⟩ := hr
      have hmem := (mem_of_mapM_idText hids t).1 ht
      obtain rfl := Except.ok.inj hr
      obtain ⟨hroot, hsig⟩ := (verify_walked (walk_membershipPath hmem) _ _ _).1 hvalid
      refine ⟨ids, readIds_eq_ok.2 ⟨hobj, items, embedded, hitems, hemb, hids⟩, hmem, hroot, hblock, fun hun => ?_⟩
      exact hsig (not_not.1 (mt (Unsigned.mk hblock) hun))
    · obtain rfl := Except.ok.inj hr
      cases hvalid
  · rintro ⟨ids, hread, hmem, hroot, hblock, hsig⟩
    obtain ⟨hobj, items, embedded, hitems, hemb, hids⟩ := readIds_eq_ok.1 hread
    have hget : ∀ k d, batch.getD k d = .ok ((batch.get? k).getD d) := fun k d => Json.getD_eq_ok.2 ⟨hobj, rfl⟩
    have hblockGet : ∀ k d, (sigBlock batch).getD k d = .ok (((sigBlock batch).get? k).getD d) :=
      fun k d => Json.getD_eq_ok.2 ⟨hblock, rfl⟩
    have hverify := (verify_walked (walk_membershipPath hmem) _ _ _).2
      ⟨hroot, fun htruthy => hsig fun hun => hun.missing htruthy⟩
    have ht := (mem_of_mapM_idText hids t).2 hmem
    unfold sigBlock at hblockGet hverify
    refine ⟨⟨true, some t, some (sha256Hex t), some ((batch.get? "merkle_root").getD (.str "")), none⟩, ?_, rfl⟩
    simp only [verifyProofInBatch, hget, hitems, hemb, hids, ok_bind, hblockGet, hverify, ht, not_true_eq_false,
      if_false]
    rfl

end

/-- **Who is in a batch.**  The check of one id accepts exactly the ids of the batches that the
check of the whole batch accepts, and those of a batch without a signature whose root fits its ids. -/
theorem membership_iff (ed : Ed25519) (batch : Json) (t : String) :
    Member ed batch t ↔ ∃ ids, readIds batch = .ok ids ∧ t ∈ ids ∧
      (Verified ed batch ∨ Unsigned batch ∧ RootFits batch ids) := by
  rw [member_iff, verified_iff]
  constructor
  · rintro ⟨ids, hids, ht, hroot, hobj, hsig⟩
    refine ⟨ids, hids, ht, ?_⟩
    by_cases hun : Unsigned batch
    · exact .inr ⟨hun, hroot⟩
    · exact .inl ⟨ids, hids, hroot, hobj, hun, hsig hun⟩
  · rintro ⟨ids, hids, ht, ⟨ids', hids', hroot, hobj, -, hsig⟩ | ⟨hun, hroot⟩⟩
    · obtain rfl := Except.ok.inj (hids.symm.trans hids')
      exact ⟨ids, hids, ht, hroot, hobj, fun _ => hsig⟩
    · exact ⟨ids, hids, ht, hroot, hun.block_isObj, fun h => absurd hun h⟩

end Batch
end ProvableAi
