/-
# Who accepts a batch export

A batch of recorded proofs under its four readers.

`audit_batch.py` agrees with itself: `verify_batch_signature` accepts every
export with the right count (`buildBatchExport_accepted`), and the inclusion
proof of every id of the export verifies (`computeInclusionProof_verified`).

The stand-alone program and the endpoint do not: a stored proof has no
`proof_id` (it is a property of `ProofV1`, which `model_dump` leaves out), so
they read an empty list of ids from every export.
-/

import ProvableAi.Batch.Export
import ProvableAi.Package.Binding

namespace ProvableAi
namespace Batch

open Merkle

/-! ### Digests in the tree -/

/-- The hexadecimal form of 32 bytes. -/
def IsDigest (s : String) : Prop := ∃ bs : Bytes, bs.length = 32 ∧ s = toHex bs

theorem isDigest_sha256Hex (s : String) : IsDigest (sha256Hex s) := ⟨_, sha256_length _, rfl⟩

theorem parent?_toHex (a b : Bytes) : parent? (toHex a) (toHex b) = some (toHex (sha256 (a ++ b))) := by
  simp [parent?]

theorem parent_toHex (a b : Bytes) : parent (toHex a) (toHex b) = toHex (sha256 (a ++ b)) := by
  rw [parent, parent?_toHex]
  rfl

theorem IsDigest.parent? {l r : String} (hl : IsDigest l) (hr : IsDigest r) : Batch.parent? l r = some (parent l r) := by
  obtain ⟨a, -, rfl⟩ := hl
  obtain ⟨b, -, rfl⟩ := hr
  rw [parent?_toHex, parent_toHex]

theorem IsDigest.parent (l r : String) (hl : IsDigest l) (hr : IsDigest r) : IsDigest (parent l r) := by
  obtain ⟨a, -, rfl⟩ := hl
  obtain ⟨b, -, rfl⟩ := hr
  exact ⟨_, sha256_length _, parent_toHex a b⟩

theorem mem_sortedIds {ids : List String} {t : String} : t ∈ sortedIds ids ↔ t ∈ ids :=
  (List.perm_insertionSort _ ids).mem_iff

theorem sortedIds_length (ids : List String) : (sortedIds ids).length = ids.length :=
  (List.perm_insertionSort _ ids).length_eq

/-- The leaves are the digests of the ids. -/
theorem mem_leaves {ids : List String} {x : String} : x ∈ leaves ids ↔ ∃ t ∈ ids, sha256Hex t = x := by
  have hd : x ∈ (sortedIds ids).map sha256Hex ↔ ∃ t ∈ ids, sha256Hex t = x := by
    simp only [List.mem_map, mem_sortedIds]
  rw [leaves]
  split_ifs
  · rw [List.mem_append, or_self, hd]
  · exact hd

theorem leaves_digests (ids : List String) : ∀ x ∈ leaves ids, IsDigest x := by
  intro x hx
  obtain ⟨t, -, rfl⟩ := mem_leaves.1 hx
  exact isDigest_sha256Hex t

theorem leaves_ne_nil {ids : List String} (h : ids ≠ []) : leaves ids ≠ [] := by
  obtain ⟨t, ht⟩ := List.exists_mem_of_ne_nil ids h
  exact List.ne_nil_of_mem (mem_leaves.2 ⟨t, ht, rfl⟩)

/-- The root of some ids is what their tree ends in, a digest. -/
theorem climb_leaves {ids : List String} (h : ids ≠ []) :
    climb parent (leaves ids).length (leaves ids) = [merkleRoot ids] ∧ topOf (leaves ids) = merkleRoot ids ∧
      IsDigest (merkleRoot ids) := by
  obtain ⟨r, hr⟩ := List.length_eq_one_iff.1 (climb_length parent (leaves_ne_nil h) le_rfl)
  have htop : topOf (leaves ids) = r := by
    rw [topOf, hr]
    rfl
  have hroot : merkleRoot ids = r := by
    rw [merkleRoot, if_neg (by simpa using h), htop]
  rw [hroot]
  exact ⟨hr, htop, forall_climb IsDigest.parent (leaves_digests ids) r (hr ▸ List.mem_singleton_self r)⟩

theorem emptyRoot_eq : emptyRoot = toHex (List.replicate 32 0) := by decide

/-- The root decodes, also that of no ids. -/
theorem isDigest_merkleRoot (ids : List String) : IsDigest (merkleRoot ids) := by
  by_cases h : ids = []
  · rw [h, merkleRoot, List.isEmpty_nil, if_pos rfl]
    exact ⟨_, List.length_replicate, emptyRoot_eq⟩
  · exact (climb_leaves h).2.2

/-! ### Inclusion proofs -/

/-- The walk of the verifier over a path of digests. -/
theorem foldlM_walk {steps : List (Merkle.Step String)} : ∀ {x : String}, IsDigest x → (∀ s ∈ steps, IsDigest s.hash) →
    steps.foldlM walk x = some (steps.foldl (above parent) x) := by
  induction steps with
  | nil => intro x _ _; rfl
  | cons s steps ih =>
    intro x hx hs
    have hd := hs s (List.mem_cons_self ..)
    obtain ⟨hstep, hnext⟩ : walk x s = some (above parent x s) ∧ IsDigest (above parent x s) := by
      rw [walk, above]
      cases s.position with
      | left => exact ⟨hd.parent? hx, hd.parent _ _ hx⟩
      | right => exact ⟨hx.parent? hd, hx.parent _ _ hd⟩
    rw [List.foldlM_cons, hstep, List.foldl_cons]
    exact ih hnext fun s' hs' => hs s' (List.mem_cons_of_mem _ hs')

/-- The path of an id leads to the root of the ids. -/
theorem walk_path {ids : List String} {t : String} (ht : t ∈ ids) :
    (path parent (leaves ids).length (leaves ids) ((leaves ids).idxOf (sha256Hex t))).foldlM walk (sha256Hex t) =
      some (merkleRoot ids) := by
  have hmem : sha256Hex t ∈ leaves ids := mem_leaves.2 ⟨t, ht, rfl⟩
  rw [foldlM_walk (isDigest_sha256Hex t) (forall_path IsDigest.parent (leaves_digests ids)),
    fold_path parent (List.getElem?_idxOf hmem) (climb_leaves (List.ne_nil_of_mem ht)).1]

/-- A batch dict binds the root of the ids: it carries it, and a signature over it that
verifies. -/
structure Binds (ed : Ed25519) (batch : Json) (ids : List String) : Prop where
  truthy : batch.truthy = true
  root : batch.get? "merkle_root" = some (.str (merkleRoot ids))
  signature : ∃ block sig pub, batch.get? "merkle_signature" = some block ∧
    block.get? "value" = some (.str sig) ∧ block.get? "public_key" = some (.str pub) ∧
    verifyHexEd25519 ed (.str pub) (merkleRoot ids) (.str sig) = true

theorem getD_of_get? {j v : Json} {k : String} (h : j.get? k = some v) (d : Json) : j.getD k d = .ok v :=
  Json.getD_eq_ok.2 ⟨Json.isObj_of_get? h, by rw [h]; rfl⟩

/-- **The inclusion proof of every id verifies**, bound to the batch. -/
theorem computeInclusionProof_verified {ed : Ed25519} {batch : Json} {ids : List String} (hb : Binds ed batch ids)
    {t : String} (ht : t ∈ ids) :
    ∃ proof, computeInclusionProof ids t (some batch) = .ok proof ∧ verifyInclusionProof ed proof = true := by
  obtain ⟨block, sig, pub, hblock, hsig, hpub, hver⟩ := hb.signature
  have hne := List.ne_nil_of_mem ht
  have hkey : ∃ v, block.getD "key_id" (.str "") = .ok v :=
    ⟨_, Json.getD_eq_ok.2 ⟨Json.isObj_of_get? hsig, rfl⟩⟩
  obtain ⟨keyId, hkey⟩ := hkey
  refine ⟨⟨sha256Hex t, (leaves ids).idxOf (sha256Hex t),
    path parent (leaves ids).length (leaves ids) ((leaves ids).idxOf (sha256Hex t)), topOf (leaves ids),
    .str (merkleRoot ids), .str sig, .str pub, keyId⟩, ?_, ?_⟩
  · rw [computeInclusionProof, if_neg (by simpa using hne), if_neg (by simpa [mem_sortedIds] using ht)]
    have hf : (some batch).filter Json.truthy = some batch := by simp [Option.filter, hb.truthy]
    simp only [hf, getD_of_get? hblock, getD_of_get? hb.root, getD_of_get? hsig, getD_of_get? hpub, hkey, ok_bind]
    rfl
  · simp only [verifyInclusionProof, walk_path ht, (climb_leaves hne).2.1]
    simp [hver]

/-! ### What `verify_batch_signature` accepts -/

/-- The signature block of a batch. -/
def sigBlock (batch : Json) : Json := (batch.get? "merkle_signature").getD (.obj [])

/-- A batch whose checks pass, with its proofs and their ids. -/
structure Accepted (ed : Ed25519) (batch : Json) (items : List Json) (ids : List String) : Prop where
  isObj : batch.isObj = true
  block_isObj : (sigBlock batch).isObj = true
  proofs : ((batch.get? "proofs").getD (.arr [])).iter = .ok items
  proofIds : proofIds items = .ok ids
  root : (batch.get? "merkle_root").getD (.str "") = .str (merkleRoot ids)
  signature : verifyHexEd25519 ed (((sigBlock batch).get? "public_key").getD (.str "")) (merkleRoot ids)
    (((sigBlock batch).get? "value").getD (.str "")) = true

theorem hexBytes_eq_ok {v : Json} {bs : Bytes} : hexBytes v = .ok bs ↔ ∃ s, v = .str s ∧ fromHex s = some bs := by
  cases v with
  | str s => cases h : fromHex s <;> simp [hexBytes, h]
  | _ => simp [hexBytes]

/-- The checks pass exactly on what verifies. -/
theorem verifyHex_iff {ed : Ed25519} {pub sig : Json} {root : String} (hroot : IsDigest root) :
    verifyHexEd25519 ed pub root sig = true ↔
      ∃ p s, hexBytes sig = .ok s ∧ hexBytes pub = .ok p ∧ ed p ((fromHex root).getD []) s = true := by
  obtain ⟨m, -, rfl⟩ := hroot
  simp only [hexBytes_eq_ok, fromHex_toHex, Option.getD_some]
  constructor
  · intro h
    unfold verifyHexEd25519 at h
    split at h
    next pk m' sg hm =>
      rw [fromHex_toHex] at hm
      obtain rfl := Option.some.inj hm
      unfold verifyEd25519 at h
      split at h
      next p s hp hs => exact ⟨p, s, ⟨_, rfl, hs⟩, ⟨_, rfl, hp⟩, h⟩
      next => cases h
    next => cases h
  · rintro ⟨p, s, ⟨sg, rfl, hs⟩, ⟨pk, rfl, hp⟩, h⟩
    simp only [verifyHexEd25519, fromHex_toHex, verifyEd25519, hp, hs, h]

theorem Accepted.verifyBatchSignature_eq {ed : Ed25519} {batch : Json} {items : List Json} {ids : List String}
    (h : Accepted ed batch items ids) :
    verifyBatchSignature ed batch = ⟨true, true, true, items.length, none⟩ := by
  obtain ⟨p, s, hs, hp, hed⟩ := (verifyHex_iff (isDigest_merkleRoot ids)).1 h.signature
  have hget : ∀ k d, batch.getD k d = .ok ((batch.get? k).getD d) := fun k d => Json.getD_eq_ok.2 ⟨h.isObj, rfl⟩
  have hblock : ∀ k d, (sigBlock batch).getD k d = .ok (((sigBlock batch).get? k).getD d) :=
    fun k d => Json.getD_eq_ok.2 ⟨h.block_isObj, rfl⟩
  have hchecks : batchChecks ed batch = .ok ⟨true, true, true, items.length, none⟩ := by
    unfold sigBlock at hblock hs hp
    simp only [batchChecks, hget, hblock, h.proofs, h.proofIds, h.root, hs, hp, hed, ok_bind, ne_eq, not_true_eq_false,
      if_false, if_true]
    rfl
  rw [verifyBatchSignature, hchecks]

theorem accepted_of_valid {ed : Ed25519} {batch : Json} (h : (verifyBatchSignature ed batch).valid = true) :
    ∃ items ids, Accepted ed batch items ids := by
  unfold verifyBatchSignature at h
  split at h
  next r hr =>
    simp only [batchChecks, bind_eq_ok_iff, Json.getD_eq_ok] at hr
    obtain ⟨_, ⟨hobj, rfl⟩, _, ⟨-, rfl⟩, _, ⟨-, rfl⟩, _, ⟨hblock, rfl⟩, _, ⟨-, rfl⟩, items, hitems, ids, hids, hr⟩ := hr
    split_ifs at hr with hroot
    · obtain ⟨t, -, ht⟩ := bind_eq_ok_iff.1 hr
      obtain rfl := Except.ok.inj ht
      cases h
    · simp only [bind_eq_ok_iff] at hr
      obtain ⟨s, hs, p, hp, hr⟩ := hr
      split_ifs at hr with hed
      · exact ⟨items, ids, hobj, hblock, hitems, hids, not_not.1 hroot,
          (verifyHex_iff (isDigest_merkleRoot ids)).2 ⟨p, s, hs, hp, hed⟩⟩
      · split at hr
        · cases hr
        · obtain rfl := Except.ok.inj hr
          cases h
  next => cases h

/-! ### The batch of a ledger -/

/-- A list whose members are all images is the image of a list. -/
theorem exists_map_eq {α β : Type*} {f : α → β} {P : α → Prop} {ys : List β} (h : ∀ y ∈ ys, ∃ x, P x ∧ f x = y) :
    ∃ xs : List α, xs.map f = ys ∧ ∀ x ∈ xs, P x := by
  induction ys with
  | nil => exact ⟨[], rfl, by simp⟩
  | cons y ys ih =>
    obtain ⟨x, hx, rfl⟩ := h y (List.mem_cons_self ..)
    obtain ⟨xs, rfl, hxs⟩ := ih fun z hz => h z (List.mem_cons_of_mem _ hz)
    exact ⟨x :: xs, rfl, List.forall_mem_cons.2 ⟨hx, hxs⟩⟩

/-- What is selected are rows of recorded proofs. -/
theorem selectedRows_eq {signer : Signer} {db : Db} {acc : List (DecisionArgs × ProofV1)} (h : Inv signer db acc)
    (tenantId : String) (fromDate toDate : Option String) :
    ∃ ps : List ProofV1, ps.map ProofV1.row = selectedRows db.ledger tenantId fromDate toDate ∧
      ∀ p ∈ ps, ∃ a, (a, p) ∈ acc := by
  refine exists_map_eq fun r hr => ?_
  have hmem : r ∈ db.ledger := (List.mem_filter.1 ((List.perm_insertionSort _ _).mem_iff.1 hr)).1
  rw [h.ledger] at hmem
  obtain ⟨ap, hap, rfl⟩ := List.mem_map.1 hmem
  exact ⟨ap.2, ⟨ap.1, hap⟩, rfl⟩

/-- The rows load. -/
theorem filterMap_loads {ps : List ProofV1} (h : ∀ p ∈ ps, p.dump.wf = true) :
    (ps.map ProofV1.row).filterMap (fun r => loads r.proofJson) = ps.map ProofV1.document := by
  induction ps with
  | nil => rfl
  | cons p ps ih =>
    rw [List.map_cons, List.filterMap_cons, p.loads_row (h p (List.mem_cons_self ..)),
      ih fun q hq => h q (List.mem_cons_of_mem _ hq)]
    rfl

/-- **A stored proof has no `proof_id`.** -/
theorem document_proofId {p : ProofV1} (h : p.dump.wf = true) : p.document.getD "proof_id" .null = .ok .null := by
  refine Json.getD_eq_ok.2 ⟨(document_isEntry h).readable.1, ?_⟩
  rw [ProofV1.document, Json.get?_canon h]
  rfl

/-- The id that is derived from its ledger block is the proof's. -/
theorem deriveProofId_document {p : ProofV1} (h : p.dump.wf = true) : deriveProofId p.document = p.proofId := by
  obtain ⟨l, hl, hw, hc⟩ := (document_isEntry h).get? (k := "ledger") (d := p.ledger.dump) rfl
  have hh : l.get? "current_hash" = some (.str p.ledger.currentHash.text) :=
    get?_str_of_canon_eq hw p.ledger.dump_wf hc rfl
  have hn : l.get? "sequence_id" = some (.int p.ledger.sequenceId) :=
    get?_int_of_canon_eq hw p.ledger.dump_wf hc rfl
  simp only [deriveProofId, hl, Option.bind_some, hh, hn]
  rfl

theorem proofIds_documents {ps : List ProofV1} (h : ∀ p ∈ ps, p.dump.wf = true) :
    proofIds (ps.map ProofV1.document) = .ok (ps.map ProofV1.proofId) := by
  have hids : (ps.map ProofV1.document).mapM proofIdOf = .ok (ps.map fun p => .str p.proofId) := by
    refine mapM_eq_ok.2 (List.forall₂_map_left_iff.2 (List.forall₂_map_right_iff.2 (List.forall₂_same.2 fun p hp => ?_)))
    rw [proofIdOf, document_proofId (h p hp), ok_bind, deriveProofId_document (h p hp)]
    rfl
  rw [proofIds, hids, ok_bind]
  exact mapM_eq_ok.2 (List.forall₂_map_left_iff.2 (List.forall₂_map_right_iff.2 (List.forall₂_same.2 fun p _ => rfl)))

theorem embeddedIds_documents {ps : List ProofV1} (h : ∀ p ∈ ps, p.dump.wf = true) :
    embeddedIds (ps.map ProofV1.document) = .ok [] := by
  have hids : (ps.map ProofV1.document).mapM (fun p => p.getD "proof_id" .null) = .ok (ps.map fun _ => .null) :=
    mapM_eq_ok.2 (List.forall₂_map_left_iff.2 (List.forall₂_map_right_iff.2
      (List.forall₂_same.2 fun p hp => document_proofId (h p hp))))
  rw [embeddedIds, hids, ok_bind]
  simp [Json.truthy, pure, Except.pure]

/-- The batch of recorded proofs. -/
def exportOf (signer : Signer) (now tenantId : String) (fromDate toDate : Option String) (ps : List ProofV1) :
    BatchExport :=
  let root := merkleRoot (ps.map ProofV1.proofId)
  ⟨batchDict tenantId fromDate toDate now root (toHex (signer.sign ((fromHex root).getD []))) (toHex signer.publicKey)
    signer.keyId (ps.map ProofV1.document), root, ps.length, now⟩

section

variable {ed : Ed25519} {recorder signer : Signer} {db : Db} {acc : List (DecisionArgs × ProofV1)}

/-- **What `build_batch_export` returns** on a ledger of recorded proofs. -/
theorem buildBatchExport_eq (h : Inv recorder db acc) (signer : Signer) (env : CallEnv) (tenantId : String)
    (fromDate toDate : Option String) :
    ∃ ps : List ProofV1, ps.map ProofV1.row = selectedRows db.ledger tenantId fromDate toDate ∧
      (∀ p ∈ ps, ∃ a, (a, p) ∈ acc) ∧ (∀ p ∈ ps, ∃ a, Built recorder a p) ∧
      fetchProofs db.ledger tenantId fromDate toDate = ps.map ProofV1.document ∧
      buildBatchExport db signer env tenantId fromDate toDate =
        match env.signFault with
        | some e => .error e
        | none => .ok (exportOf signer env.now.text tenantId fromDate toDate ps) := by
  obtain ⟨ps, hrows, hmem⟩ := selectedRows_eq h tenantId fromDate toDate
  have hbuilt : ∀ p ∈ ps, ∃ a, Built recorder a p := fun p hp => (hmem p hp).imp fun a ha => h.built (a, p) ha
  have hwf : ∀ p ∈ ps, p.dump.wf = true := fun p hp => (hbuilt p hp).elim fun _ hb => hb.wf
  have hfetch : fetchProofs db.ledger tenantId fromDate toDate = ps.map ProofV1.document := by
    rw [fetchProofs, ← hrows, filterMap_loads hwf]
  refine ⟨ps, hrows, hmem, hbuilt, hfetch, ?_⟩
  simp only [buildBatchExport, hfetch, proofIds_documents hwf, ok_bind, signHash]
  cases env.signFault with
  | some e => rfl
  | none => simp [ok_bind, exportOf, pure, Except.pure]

/-- The signature of an export verifies. -/
theorem exportOf_signature (hs : signer.Honest ed) (ids : List String) :
    verifyHexEd25519 ed (.str (toHex signer.publicKey)) (merkleRoot ids)
      (.str (toHex (signer.sign ((fromHex (merkleRoot ids)).getD [])))) = true := by
  have hex : ∀ bs : Bytes, hexBytes (.str (toHex bs)) = .ok bs :=
    fun bs => hexBytes_eq_ok.2 ⟨_, rfl, fromHex_toHex bs⟩
  exact (verifyHex_iff (isDigest_merkleRoot ids)).2 ⟨_, _, hex _, hex _, hs _⟩

theorem exportOf_accepted (hs : signer.Honest ed) {ps : List ProofV1} (hwf : ∀ p ∈ ps, p.dump.wf = true)
    (now tenantId : String) (fromDate toDate : Option String) :
    Accepted ed (exportOf signer now tenantId fromDate toDate ps).batchDict (ps.map ProofV1.document)
      (ps.map ProofV1.proofId) where
  isObj := rfl
  block_isObj := rfl
  proofs := rfl
  proofIds := proofIds_documents hwf
  root := rfl
  signature := exportOf_signature hs _

theorem exportOf_binds (hs : signer.Honest ed) (ps : List ProofV1) (now tenantId : String)
    (fromDate toDate : Option String) :
    Binds ed (exportOf signer now tenantId fromDate toDate ps).batchDict (ps.map ProofV1.proofId) where
  truthy := rfl
  root := rfl
  signature := ⟨_, _, _, rfl, rfl, rfl, exportOf_signature hs _⟩

/-- **`audit_batch.py` accepts its own exports**: the signature check with the number of
proofs, and the inclusion proof of every id. -/
theorem buildBatchExport_accepted (hs : signer.Honest ed) (ops : List Op) {env : CallEnv} (hf : env.signFault = none)
    (tenantId : String) (fromDate toDate : Option String) :
    ∃ batch ids, buildBatchExport (Engine.fresh.run recorder ops).1.db signer env tenantId fromDate toDate = .ok batch ∧
      verifyBatchSignature ed batch.batchDict = ⟨true, true, true, batch.proofCount, none⟩ ∧
      proofIds (fetchProofs (Engine.fresh.run recorder ops).1.db.ledger tenantId fromDate toDate) = .ok ids ∧
      ∀ t ∈ ids, ∃ proof, computeInclusionProof ids t (some batch.batchDict) = .ok proof ∧
        verifyInclusionProof ed proof = true := by
  obtain ⟨ps, -, -, hbuilt, hfetch, hbatch⟩ := buildBatchExport_eq (inv_run recorder ops) signer env tenantId fromDate toDate
  have hwf : ∀ p ∈ ps, p.dump.wf = true := fun p hp => (hbuilt p hp).elim fun _ hb => hb.wf
  rw [hf] at hbatch
  refine ⟨_, ps.map ProofV1.proofId, hbatch, ?_, by rw [hfetch, proofIds_documents hwf], fun t ht => ?_⟩
  · rw [(exportOf_accepted hs hwf _ _ _ _).verifyBatchSignature_eq, List.length_map]
    rfl
  · exact computeInclusionProof_verified (exportOf_binds hs ps _ _ _ _) ht

end

/-! ### The other two readers -/

/-- What is expected of an export: both verifiers accept it and count its proofs, and the
endpoint's flow finds every proof by its id and verifies what it returns. -/
structure RoundTrip (ed : Ed25519) (batch : BatchExport) (proofs : List Json) : Prop where
  builtin : (verifyBatchSignature ed batch.batchDict).valid = true ∧
    (verifyBatchSignature ed batch.batchDict).proofCount = proofs.length
  standalone : ∃ r, verifyBatch ed batch.batchDict = .ok r ∧ r.valid = true ∧ r.proofCount = proofs.length
  included : ∀ p ∈ proofs, ∀ id, proofIdOf p = .ok (.str id) →
    ∃ proof, inclusionFlow ed batch id = .ok (.content id batch.merkleRoot proof true)

section

variable {ed : Ed25519} {ps : List ProofV1} (hwf : ∀ p ∈ ps, p.dump.wf = true) (signer : Signer)
  (now tenantId : String) (fromDate toDate : Option String)
include hwf

/-- The stand-alone program counts no proof. -/
theorem verifyBatch_exportOf {r : BatchResult}
    (h : verifyBatch ed (exportOf signer now tenantId fromDate toDate ps).batchDict = .ok r) : r.proofCount = 0 := by
  obtain ⟨batch, hbatch⟩ : ∃ batch, (exportOf signer now tenantId fromDate toDate ps).batchDict = batch := ⟨_, rfl⟩
  have hproofs : batch.getD "proofs" (.arr []) = .ok (.arr (ps.map ProofV1.document)) := by rw [← hbatch]; rfl
  rw [hbatch] at h
  simp only [verifyBatch, bind_eq_ok_iff, hproofs] at h
  obtain ⟨_, -, _, -, _, hp, _, hi, embedded, he, _, -, ids, -, h⟩ := h
  obtain rfl := Except.ok.inj hp
  obtain rfl := Except.ok.inj hi
  rw [embeddedIds_documents hwf] at he
  obtain rfl := Except.ok.inj he
  split_ifs at h with hroot
  · obtain ⟨_, -, h⟩ := bind_eq_ok_iff.1 h
    obtain rfl := Except.ok.inj h
    rfl
  · simp only [bind_eq_ok_iff] at h
    obtain ⟨_, -, _, -, _, -, h⟩ := h
    split_ifs at h
    · obtain rfl := Except.ok.inj h
      rfl
    · split at h
      · obtain rfl := Except.ok.inj h
        rfl
      · obtain rfl := Except.ok.inj h
        rfl

/-- It refuses the batch, unless the root is that of an empty one. -/
theorem verifyBatch_exportOf_refused (hne : merkleRoot (ps.map ProofV1.proofId) ≠ emptyRoot) :
    ∃ r, verifyBatch ed (exportOf signer now tenantId fromDate toDate ps).batchDict = .ok r ∧ r.valid = false := by
  obtain ⟨batch, hbatch⟩ : ∃ batch, (exportOf signer now tenantId fromDate toDate ps).batchDict = batch := ⟨_, rfl⟩
  have ht : batch.getD "tenant_id" .null = .ok (.str tenantId) := by rw [← hbatch]; rfl
  have he : batch.getD "exported_at" .null = .ok (.str now) := by rw [← hbatch]; rfl
  have hp : batch.getD "proofs" (.arr []) = .ok (.arr (ps.map ProofV1.document)) := by rw [← hbatch]; rfl
  have hr : batch.getD "merkle_root" (.str "") = .ok (.str (merkleRoot (ps.map ProofV1.proofId))) := by
    rw [← hbatch]; rfl
  have hids : ([] : List Json).mapM idText = .ok [] := rfl
  have hempty : merkleRoot [] = emptyRoot := if_pos rfl
  rw [hbatch, verifyBatch, ht, ok_bind, he, ok_bind, hp, ok_bind, Json.iter, ok_bind, embeddedIds_documents hwf, ok_bind,
    hr, ok_bind, hids, ok_bind]
  simp only [hempty]
  rw [if_pos (by simpa using hne), Json.pySlice, ok_bind]
  exact ⟨_, rfl, rfl⟩

/-- The endpoint finds no id. -/
theorem inclusionFlow_exportOf (id : String) :
    inclusionFlow ed (exportOf signer now tenantId fromDate toDate ps) id = .ok (.notInBatch id 0) := by
  have hproofs : (exportOf signer now tenantId fromDate toDate ps).batchDict.getD "proofs" (.arr []) =
      .ok (.arr (ps.map ProofV1.document)) := rfl
  rw [inclusionFlow, hproofs, ok_bind, Json.iter, ok_bind, embeddedIds_documents hwf, ok_bind,
    if_pos List.not_mem_nil]
  rfl

end

/-- **No export of a recorded decision makes the round trip.** -/
theorem buildBatchExport_not_roundTrip {ed : Ed25519} {recorder signer : Signer} (hs : signer.Honest ed)
    (ops : List Op) {env : CallEnv} (hf : env.signFault = none) (tenantId : String) (fromDate toDate : Option String)
    (hrow : selectedRows (Engine.fresh.run recorder ops).1.db.ledger tenantId fromDate toDate ≠ []) :
    ∃ batch, buildBatchExport (Engine.fresh.run recorder ops).1.db signer env tenantId fromDate toDate = .ok batch ∧
      (verifyBatchSignature ed batch.batchDict).valid = true ∧
      ¬ RoundTrip ed batch (fetchProofs (Engine.fresh.run recorder ops).1.db.ledger tenantId fromDate toDate) := by
  obtain ⟨ps, hrows, -, hbuilt, hfetch, hbatch⟩ := buildBatchExport_eq (inv_run recorder ops) signer env tenantId fromDate toDate
  have hwf : ∀ p ∈ ps, p.dump.wf = true := fun p hp => (hbuilt p hp).elim fun _ hb => hb.wf
  rw [hf] at hbatch
  refine ⟨_, hbatch, ?_, fun hround => ?_⟩
  · rw [(exportOf_accepted hs hwf _ _ _ _).verifyBatchSignature_eq]
  · obtain ⟨r, hr, -, hcount⟩ := hround.standalone
    rw [verifyBatch_exportOf hwf _ _ _ _ _ hr, hfetch, List.length_map] at hcount
    exact hrow (by rw [← hrows, List.length_eq_zero_iff.1 hcount.symm]; rfl)

/-! ### The loan -/

theorem merkleRoot_singleton (id : String) :
    merkleRoot [id] = toHex (sha256 (sha256 (utf8 id) ++ sha256 (utf8 id))) := by
  have hclimb : climb parent 2 [sha256Hex id, sha256Hex id] = [parent (sha256Hex id) (sha256Hex id)] := by
    simp [climb, up, pad, neighbours]
  have hleaves : leaves [id] = [sha256Hex id, sha256Hex id] := rfl
  rw [merkleRoot, if_neg (by simp), hleaves, topOf, List.length_cons, List.length_singleton, hclimb, sha256Hex,
    parent_toHex]
  rfl

/-- The id of the loan's proof. -/
def loanId : String := computeProofId loanHash 1

/-- The signature of the key over the root of the loan's batch. -/
def batchSignature : Bytes :=
  [0x16, 0xce, 0xac, 0x9d, 0x28, 0x18, 0x34, 0x74, 0x9d, 0x39, 0xff, 0x36, 0x0f, 0x40, 0x10, 0x8c,
   0x59, 0xe6, 0x01, 0x05, 0x0e, 0xc5, 0xf9, 0x8d, 0x98, 0x53, 0x5c, 0xe3, 0x3c, 0x35, 0xff, 0xe9,
   0x40, 0xae, 0xf8, 0x81, 0x19, 0x1e, 0x57, 0x81, 0x15, 0xe1, 0x2d, 0x53, 0xf1, 0xce, 0x00, 0x93,
   0x69, 0x44, 0x20, 0x27, 0x35, 0x12, 0x0d, 0x0b, 0x3c, 0xc0, 0x77, 0x7a, 0x2e, 0x71, 0x7c, 0x08]

/-- The key on that root. -/
def batchSign (m : Bytes) : Bytes :=
  if m = (fromHex (merkleRoot [loanId])).getD [] then batchSignature else loanSign m

theorem batchSign_length (m : Bytes) : (batchSign m).length = 64 := by
  rw [batchSign]
  split_ifs
  · rfl
  · exact loanSign_length m

/-- The loan's signer, exporting. -/
def batchSigner : Signer := { loanSigner with sign := batchSign, sign_length := batchSign_length }

/-- The verifier that takes what it signs. -/
def batchVerifier : Ed25519 := fun pk m s => decide (pk = rfcPublicKey ∧ s = batchSign m)

theorem batchSigner_honest : batchSigner.Honest batchVerifier := fun _ => decide_eq_true ⟨rfl, rfl⟩

/-- The loan's row is selected without a range, and exported. -/
theorem loan_exported :
    ∃ p, IsLoan p ∧ p.proofId = loanId ∧
      selectedRows (Engine.fresh.run loanSigner (loanRun none)).1.db.ledger defaultTenant none none = [p.row] ∧
      fetchProofs (Engine.fresh.run loanSigner (loanRun none)).1.db.ledger defaultTenant none none = [p.document] ∧
      buildBatchExport (Engine.fresh.run loanSigner (loanRun none)).1.db batchSigner loanEnv defaultTenant none none =
        .ok (exportOf batchSigner loanEnv.now.text defaultTenant none none [p]) := by
  obtain ⟨p, hb, -, hrec⟩ := loanRun_records none
  have hloan := isLoan_of_buildProof hb
  have hinv := inv_run loanSigner (loanRun none)
  rw [hrec] at hinv
  have hselected : selectedRows (Engine.fresh.run loanSigner (loanRun none)).1.db.ledger defaultTenant none none =
      [p.row] := by
    rw [hinv.ledger]
    simp [selectedRows, inRange, ProofV1.row, ProofDict.row, ProofV1.toDict, ProofDict.tenant]
  obtain ⟨ps, hrows, hmem, -, hfetch, hbatch⟩ := buildBatchExport_eq hinv batchSigner loanEnv defaultTenant none none
  rw [hselected] at hrows
  obtain ⟨q, rfl, -⟩ := List.map_eq_singleton_iff.1 hrows
  obtain ⟨a, ha⟩ := hmem q (List.mem_singleton_self q)
  obtain rfl : q = p := (Prod.mk.inj (List.mem_singleton.1 ha)).2
  have hseq : q.ledger.sequenceId = 1 := hloan.linked.2.1
  refine ⟨q, hloan, ?_, hselected, hfetch, hbatch⟩
  rw [ProofV1.proofId, hloan.currentHash, hseq, loanId]

theorem buildBatchExport_not_roundTrip_loan :
    ∃ batch, buildBatchExport (Engine.fresh.run loanSigner (loanRun none)).1.db batchSigner loanEnv defaultTenant none
        none = .ok batch ∧
      (verifyBatchSignature batchVerifier batch.batchDict).valid = true ∧
      ¬ RoundTrip batchVerifier batch
        (fetchProofs (Engine.fresh.run loanSigner (loanRun none)).1.db.ledger defaultTenant none none) := by
  obtain ⟨p, -, -, hrows, -⟩ := loan_exported
  exact buildBatchExport_not_roundTrip batchSigner_honest (loanRun none) rfl defaultTenant none none (by simp [hrows])

theorem loan_idText : loanHash ++ ":" ++ toString (1 : ℤ) =
    "1b9729d5326ca6da3fd4ab8b8b738519ce62e41e431bcc5187d38448d1067894:1" := by
  rw [loanHash_eq]
  decide

/-- The root of the loan's batch is not that of an empty one. -/
theorem loan_merkleRoot_ne : merkleRoot [loanId] ≠ emptyRoot := by
  rw [merkleRoot_singleton, emptyRoot_eq, Ne, toHex_inj, loanId, computeProofId, loan_idText, sha256Hex, toHex,
    utf8_ofList]
  decide +kernel

/-- The export of the loan: `audit_batch.py` accepts it, the stand-alone program finds no
proof in it and another root, and the endpoint does not know the id of its proof. -/
theorem loan_batch_refused : batchSigner.Honest batchVerifier ∧
    ∃ batch r id, buildBatchExport (Engine.fresh.run loanSigner (loanRun none)).1.db batchSigner loanEnv defaultTenant
        none none = .ok batch ∧
      proofIds (fetchProofs (Engine.fresh.run loanSigner (loanRun none)).1.db.ledger defaultTenant none none) =
        .ok [id] ∧
      verifyBatchSignature batchVerifier batch.batchDict = ⟨true, true, true, 1, none⟩ ∧
      verifyBatch batchVerifier batch.batchDict = .ok r ∧ r.valid = false ∧ r.proofCount = 0 ∧
      inclusionFlow batchVerifier batch id = .ok (.notInBatch id 0) := by
  obtain ⟨p, hloan, hid, -, hfetch, hbatch⟩ := loan_exported
  have hwf : ∀ q ∈ [p], q.dump.wf = true := List.forall_mem_singleton.2 hloan.wf
  have hne : merkleRoot ([p].map ProofV1.proofId) ≠ emptyRoot := by
    rw [List.map_singleton, hid]
    exact loan_merkleRoot_ne
  obtain ⟨r, hr, hvalid⟩ := verifyBatch_exportOf_refused hwf batchSigner loanEnv.now.text defaultTenant none none hne
  refine ⟨batchSigner_honest, _, r, p.proofId, hbatch, ?_, ?_, hr, hvalid, verifyBatch_exportOf hwf _ _ _ _ _ hr,
    inclusionFlow_exportOf hwf _ _ _ _ _ _⟩
  · rw [hfetch]
    have hids := proofIds_documents hwf
    rw [List.map_singleton, List.map_singleton] at hids
    exact hids
  · have haccepted := exportOf_accepted batchSigner_honest hwf loanEnv.now.text defaultTenant none none
    rw [haccepted.verifyBatchSignature_eq]
    rfl

end Batch
end ProvableAi
