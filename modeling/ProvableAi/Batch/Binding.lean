/-
# What the root of a batch is bound to

The root commits to the list of ids up to order and padding
(`perm_of_merkleRoot`).  From an id back to a proof nothing is checked:
`verify_batch_signature` takes the `proof_id` that a proof carries, or one
derived from the `current_hash` it carries, and recomputes neither from the
content.

`sameProofs_iff` is the exact reach of the signature: a batch that is accepted
with the root of an export has the same proofs exactly if it has as many of
them and its ids are those that its contents give.
-/

import ProvableAi.Batch.RoundTrip
import ProvableAi.Lib.Reorder

namespace ProvableAi
namespace Batch

open Merkle Reorder

/-! ### From the root to the ids -/

/-- No two of the byte strings have one digest. -/
def CollisionFreeBytes (messages : Set Bytes) : Prop := Set.InjOn sha256 messages

/-- The bytes that are hashed for the parent of two nodes. -/
def joinedBytes (p : String × String) : Bytes := (fromHex p.1).getD [] ++ (fromHex p.2).getD []

/-- The byte strings that are hashed for a root: the ids and the joined nodes. -/
def treeMessages (ids : List String) : Set Bytes :=
  {m | ∃ t ∈ ids, m = utf8 t} ∪ {m | ∃ p ∈ joined parent (leaves ids).length (leaves ids), m = joinedBytes p}

/-- The parent of two digests is the digest of their bytes. -/
theorem IsDigest.parent_eq {l r : String} (hl : IsDigest l) (hr : IsDigest r) :
    Batch.parent l r = toHex (sha256 (joinedBytes (l, r))) := by
  obtain ⟨a, -, rfl⟩ := hl
  obtain ⟨b, -, rfl⟩ := hr
  simp [parent_toHex, joinedBytes]

/-- The bytes of two digests determine them. -/
theorem joinedBytes_inj {p q : String × String} (hp : IsDigest p.1 ∧ IsDigest p.2) (hq : IsDigest q.1 ∧ IsDigest q.2)
    (h : joinedBytes p = joinedBytes q) : p = q := by
  obtain ⟨⟨a, ha, hpa⟩, b, -, hpb⟩ := hp
  obtain ⟨⟨c, hc, hqc⟩, d, -, hqd⟩ := hq
  simp only [joinedBytes, hpa, hpb, hqc, hqd, fromHex_toHex, Option.getD_some] at h
  obtain ⟨rfl, rfl⟩ := List.append_inj h (ha.trans hc.symm)
  exact Prod.ext (hpa.trans hqc.symm) (hpb.trans hqd.symm)

theorem joined_digests (ids : List String) :
    ∀ p ∈ joined parent (leaves ids).length (leaves ids), IsDigest p.1 ∧ IsDigest p.2 :=
  forall_joined IsDigest.parent (leaves_digests ids)

theorem leaves_length (ids : List String) :
    (leaves ids).length = if ids.length = 1 then 2 else ids.length := by
  rw [leaves]
  simp only [List.length_map, sortedIds_length]
  split_ifs with h
  · rw [List.length_append, List.length_map, sortedIds_length, h]
  · rw [List.length_map, sortedIds_length]

/-- Among lists of one length the leaves determine the digests. -/
theorem digests_of_leaves {ids ids' : List String} (hlen : ids.length = ids'.length) (h : leaves ids = leaves ids') :
    (sortedIds ids).map sha256Hex = (sortedIds ids').map sha256Hex := by
  rw [leaves, leaves] at h
  simp only [List.length_map, sortedIds_length, hlen] at h
  split_ifs at h
  · exact List.append_inj_left h (by simp [sortedIds_length, hlen])
  · exact h

/-- Joining is injective on the nodes of two trees. -/
theorem parent_injOn {xs ys : List String} (hsha : CollisionFreeBytes (treeMessages xs ∪ treeMessages ys)) :
    Set.InjOn (fun p : String × String => parent p.1 p.2)
      {p | p ∈ joined parent (leaves xs).length (leaves xs) ∨ p ∈ joined parent (leaves ys).length (leaves ys)} := by
  have hd : ∀ p, (p ∈ joined parent (leaves xs).length (leaves xs) ∨ p ∈ joined parent (leaves ys).length (leaves ys)) →
      (IsDigest p.1 ∧ IsDigest p.2) ∧ joinedBytes p ∈ treeMessages xs ∪ treeMessages ys := by
    rintro p (hp | hp)
    · exact ⟨joined_digests xs p hp, .inl (.inr ⟨p, hp, rfl⟩)⟩
    · exact ⟨joined_digests ys p hp, .inr (.inr ⟨p, hp, rfl⟩)⟩
  -- joined nodes are digests, so equal parents are equal digests of equal bytes
  intro p hp q hq hpq
  obtain ⟨hpd, hpm⟩ := hd p hp
  obtain ⟨hqd, hqm⟩ := hd q hq
  simp only [hpd.1.parent_eq hpd.2, hqd.1.parent_eq hqd.2, toHex_inj] at hpq
  exact joinedBytes_inj hpd hqd (hsha hpm hqm hpq)

/-- **The root determines the ids**, among lists of one length and up to order. -/
theorem perm_of_merkleRoot {ids ids' : List String} (hlen : ids.length = ids'.length)
    (hsha : CollisionFreeBytes (treeMessages ids ∪ treeMessages ids')) (h : merkleRoot ids = merkleRoot ids') :
    ids.Perm ids' := by
  by_cases hne : ids = []
  · rw [hne] at hlen ⊢
    rw [List.length_eq_zero_iff.1 hlen.symm]
  · have hne' : ids' ≠ [] := fun h0 => hne (List.length_eq_zero_iff.1 (by rw [hlen, h0]; rfl))
    have hleaves : (leaves ids).length = (leaves ids').length := by rw [leaves_length, leaves_length, hlen]
    have hclimb : climb parent (leaves ids).length (leaves ids) = climb parent (leaves ids).length (leaves ids') := by
      rw [(climb_leaves hne).1, h, hleaves, (climb_leaves hne').1]
    have hinj := parent_injOn hsha
    rw [← hleaves] at hinj
    have hdig := digests_of_leaves hlen (climb_inj hleaves hinj hclimb)
    have hperm : (ids.map sha256Hex).Perm (ids'.map sha256Hex) :=
      (((List.perm_insertionSort _ ids).map _).symm.trans (.of_eq hdig)).trans ((List.perm_insertionSort _ ids').map _)
    have hrel := (rel_of_map_perm hperm).mono fun x hx y hy hxy =>
      utf8_inj.1 (hsha (.inl (.inl ⟨x, hx, rfl⟩)) (.inr (.inl ⟨y, hy, rfl⟩)) (toHex_inj.1 hxy))
    exact Multiset.coe_eq_coe.1 (Multiset.rel_eq.1 hrel)

/-! ### From the contents to the ids -/

/-- The number of an entry. -/
def entrySequence (e : Json) : Json := ((entryBlock e).get? "sequence_id").getD (.int 0)

/-- The text that is hashed for the id that the content of an entry gives. -/
def contentIdText (e : Json) : String := contentHash e ++ ":" ++ (entrySequence e).pyStr

/-- The id that the content of an entry gives: `compute_proof_id` of the recomputed hash. -/
def contentProofId (e : Json) : String := sha256Hex (contentIdText e)

/-- The byte strings that are hashed for the ids that the contents give. -/
def contentMessages (proofs : List Json) : Set Bytes :=
  {m | ∃ e ∈ proofs, m = utf8 (dumps (entryContent e))} ∪ {m | ∃ e ∈ proofs, m = utf8 (contentIdText e)}

/-- Where nothing collides, equal ids come of equal contents. -/
theorem sameContent_of_contentProofId {es ds : List Json}
    (hsha : CollisionFreeBytes (contentMessages es ∪ contentMessages ds)) {e d : Json} (he : e ∈ es) (hd : d ∈ ds)
    (hew : e.wf = true) (hdw : d.wf = true) (h : contentProofId e = contentProofId d) : SameContent e d := by
  have htext : contentIdText e = contentIdText d :=
    utf8_inj.1 (hsha (.inl (.inr ⟨e, he, rfl⟩)) (.inr (.inr ⟨d, hd, rfl⟩)) (toHex_inj.1 h))
  have hhash : contentHash e = contentHash d := by
    have hl := congrArg String.toList htext
    simp only [contentIdText, String.toList_append, List.append_assoc] at hl
    have hlen : (contentHash e).toList.length = (contentHash d).toList.length := by
      rw [String.length_toList, String.length_toList, contentHash_length, contentHash_length]
    exact String.toList_inj.1 (List.append_inj_left hl hlen)
  exact sameContent_of_dumps hew hdw
    (utf8_inj.1 (hsha (.inl (.inl ⟨e, he, rfl⟩)) (.inr (.inl ⟨d, hd, rfl⟩)) (toHex_inj.1 hhash)))

theorem entrySequence_document {p : ProofV1} (hw : p.dump.wf = true) :
    entrySequence p.document = .int p.ledger.sequenceId := by
  have hb := (document_isEntry hw).block
  rw [entrySequence, get?_int_of_canon_eq hb.1 p.ledger.dump_wf hb.2 (n := p.ledger.sequenceId) rfl]
  rfl

/-- An entry that agrees with a recorded proof has its id. -/
theorem contentProofId_of_sameContent {e : Json} {p : ProofV1} (hw : p.dump.wf = true) (h : SameContent e p.document) :
    contentProofId e = contentProofId p.document := by
  have hseq := entrySequence_document hw
  have hcanon : (entrySequence e).canon = .int p.ledger.sequenceId := by
    have hc : (entrySequence e).canon = (entrySequence p.document).canon := h.sequenceId
    rw [hc, hseq]
    rfl
  have he : entrySequence e = .int p.ledger.sequenceId := by
    cases hv : entrySequence e <;> simp_all [Json.canon_obj]
  rw [contentProofId, contentProofId, contentIdText, contentIdText, he, hseq, contentHash, contentHash,
    dumps_eq_of_canon h.content_canon]

/-- The id of a recorded proof is what its content gives. -/
theorem contentProofId_document {signer : Signer} {a : DecisionArgs} {p : ProofV1} (hb : Built signer a p) :
    contentProofId p.document = p.proofId := by
  rw [contentProofId, contentIdText, entrySequence_document hb.wf, (document_isEntry hb.wf).contentHash_eq, ← hb.hash_eq]
  rfl

/-! ### Two batches with one root -/

/-- The proofs of a batch, as the checks iterate over them. -/
def batchProofs (batch : Json) : List Json := (((batch.get? "proofs").getD (.arr [])).iter).toOption.getD []

/-- Their ids, as the checks take them. -/
def batchIds (batch : Json) : List String := (proofIds (batchProofs batch)).toOption.getD []

/-- What is hashed for the root of a batch and for the ids that its contents give. -/
def batchMessages (batch : Json) : Set Bytes :=
  treeMessages (batchIds batch) ∪ contentMessages (batchProofs batch)

/-- The batches have the same multiset of proofs, compared on what is hashed of them. -/
def SameProofs (batch other : Json) : Prop :=
  Multiset.Rel SameContent (batchProofs batch : Multiset Json) (batchProofs other : Multiset Json)

/-- The ids of the proofs are those that their contents give, up to order. -/
def IdsFromContent (batch : Json) : Prop := (batchIds batch).Perm ((batchProofs batch).map contentProofId)

theorem Accepted.batchProofs_eq {ed : Ed25519} {batch : Json} {items : List Json} {ids : List String}
    (h : Accepted ed batch items ids) : batchProofs batch = items ∧ batchIds batch = ids := by
  have hp : batchProofs batch = items := by
    rw [batchProofs, h.proofs]
    rfl
  refine ⟨hp, ?_⟩
  rw [batchIds, hp, h.proofIds]
  rfl

theorem proofIds_length {items : List Json} {ids : List String} (h : proofIds items = .ok ids) :
    ids.length = items.length := by
  obtain ⟨vs, hvs, hids⟩ := bind_eq_ok_iff.1 h
  rw [← (mapM_eq_ok.1 hids).length_eq, ← (mapM_eq_ok.1 hvs).length_eq]

/-- What is iterated over is well-formed. -/
theorem iter_wf {v : Json} {items : List Json} (hv : v.wf = true) (h : v.iter = .ok items) :
    ∀ x ∈ items, x.wf = true := by
  cases v with
  | arr xs =>
    obtain rfl := Except.ok.inj h
    exact (Json.wf_arr xs).1 hv
  | obj kvs =>
    obtain rfl := Except.ok.inj h
    exact fun x hx => (List.mem_map.1 hx).elim fun kv hkv => hkv.2 ▸ rfl
  | str s =>
    obtain rfl := Except.ok.inj h
    exact fun x hx => (List.mem_map.1 hx).elim fun c hc => hc.2 ▸ rfl
  | _ => cases h

section

variable {recorder : Signer} {ps : List ProofV1} (hbuilt : ∀ p ∈ ps, ∃ a, Built recorder a p)
include hbuilt

/-- The ids of recorded proofs are what their contents give. -/
theorem map_contentProofId : (ps.map ProofV1.document).map contentProofId = ps.map ProofV1.proofId := by
  rw [List.map_map]
  refine List.map_congr_left fun p hp => ?_
  obtain ⟨a, hb⟩ := hbuilt p hp
  exact contentProofId_document hb

/-- Entries whose ids come of their contents and are those of recorded proofs are these
proofs … -/
theorem rel_of_ids {items : List Json} {ids : List String} (hw : ∀ e ∈ items, e.wf = true)
    (hsha : CollisionFreeBytes (contentMessages items ∪ contentMessages (ps.map ProofV1.document)))
    (hids : ids.Perm (items.map contentProofId)) (hperm : ids.Perm (ps.map ProofV1.proofId)) :
    Multiset.Rel SameContent (items : Multiset Json) (ps.map ProofV1.document : List Json) := by
  rw [← map_contentProofId hbuilt] at hperm
  refine (rel_of_map_perm (hids.symm.trans hperm)).mono fun e he d hd h => ?_
  obtain ⟨p, hp, rfl⟩ := List.mem_map.1 hd
  obtain ⟨a, hb⟩ := hbuilt p hp
  exact sameContent_of_contentProofId hsha he hd (hw e he) (p.document_wf hb.wf) h

/-- … and where the entries are these proofs, their contents give the ids. -/
theorem perm_of_rel {items : List Json}
    (h : Multiset.Rel SameContent (items : Multiset Json) (ps.map ProofV1.document : List Json)) :
    (items.map contentProofId).Perm (ps.map ProofV1.proofId) := by
  rw [← map_contentProofId hbuilt]
  refine map_perm_of_rel (h.mono fun e _ d hd hed => ?_)
  obtain ⟨p, hp, rfl⟩ := List.mem_map.1 hd
  obtain ⟨a, hb⟩ := hbuilt p hp
  exact contentProofId_of_sameContent hb.wf hed

end

/-- **What the signature of an export binds.**  A batch that is accepted with the root
of an export has its proofs exactly if it has as many and its ids are those that
its contents give. -/
theorem sameProofs_iff {ed : Ed25519} {recorder signer : Signer} (ops : List Op) {env : CallEnv} {tenantId : String}
    {fromDate toDate : Option String} {exported : BatchExport}
    (hexp : buildBatchExport (Engine.fresh.run recorder ops).1.db signer env tenantId fromDate toDate = .ok exported)
    {batch : Json} (hwf : batch.wf = true) (hvalid : (verifyBatchSignature ed batch).valid = true)
    (hroot : batch.get? "merkle_root" = exported.batchDict.get? "merkle_root")
    (hsha : CollisionFreeBytes (batchMessages batch ∪ batchMessages exported.batchDict)) :
    SameProofs batch exported.batchDict ↔
      (batchProofs batch).length = (batchProofs exported.batchDict).length ∧ IdsFromContent batch := by
  obtain ⟨ps, -, -, hbuilt, -, heq⟩ := buildBatchExport_eq (inv_run recorder ops) signer env tenantId fromDate toDate
  have hps : ∀ p ∈ ps, p.dump.wf = true := fun p hp => (hbuilt p hp).elim fun _ hb => hb.wf
  obtain rfl : exported = exportOf signer env.now.text tenantId fromDate toDate ps := by
    rw [hexp] at heq
    cases hf : env.signFault with
    | some e => rw [hf] at heq; cases heq
    | none => rw [hf] at heq; exact Except.ok.inj heq
  have hproofs : batchProofs (exportOf signer env.now.text tenantId fromDate toDate ps).batchDict =
      ps.map ProofV1.document := rfl
  have hids : batchIds (exportOf signer env.now.text tenantId fromDate toDate ps).batchDict =
      ps.map ProofV1.proofId := by
    rw [batchIds, hproofs, proofIds_documents hps]
    rfl
  obtain ⟨items, ids, hacc⟩ := accepted_of_valid hvalid
  obtain ⟨hitems, hitemIds⟩ := hacc.batchProofs_eq
  have hmerkle : merkleRoot ids = merkleRoot (ps.map ProofV1.proofId) := by
    have hr := hacc.root
    rw [hroot] at hr
    exact (Json.str.inj hr).symm
  rw [batchMessages, batchMessages, hproofs, hids, hitems, hitemIds] at hsha
  rw [SameProofs, IdsFromContent, hproofs, hitems, hitemIds]
  -- with one root and as many proofs, the two lists of ids agree up to order
  have hperm : items.length = (ps.map ProofV1.document).length → ids.Perm (ps.map ProofV1.proofId) := by
    intro hlen
    refine perm_of_merkleRoot ?_ (hsha.mono ?_) hmerkle
    · rw [proofIds_length hacc.proofIds, hlen, List.length_map, List.length_map]
    · exact Set.union_subset_union Set.subset_union_left Set.subset_union_left
  constructor
  · intro hsame
    have hlen : items.length = (ps.map ProofV1.document).length := by
      simpa using Multiset.card_eq_card_of_rel hsame
    exact ⟨hlen, (hperm hlen).trans (perm_of_rel hbuilt hsame).symm⟩
  · rintro ⟨hlen, hcontent⟩
    have hw : ∀ e ∈ items, e.wf = true := iter_wf (wf_getD hwf rfl _) hacc.proofs
    exact rel_of_ids hbuilt hw
      (hsha.mono (Set.union_subset_union Set.subset_union_right Set.subset_union_right)) hcontent (hperm hlen)

/-! ### The loan, approved and rejected -/

/-- The loan's proof with another decision, all else left as it was. -/
def rejectedLoan : Json :=
  .obj [("decision", .obj [("from_state", .str "pending"), ("to_state", .str "rejected")]),
    ("decision_context", loanContext.dump), ("governance", loanGovernance.dump),
    ("determinism", Determinism.dump ⟨.strictDeterministic, none, none, unseeded_fields⟩),
    ("ledger", .obj [("sequence_id", .int 1), ("previous_hash", .str genesisHash), ("current_hash", .str loanHash)])]

/-- A batch around proofs with the root and the signature of the loan's. -/
def loanBatch (proofs : List Json) : Json :=
  batchDict defaultTenant none none loanEnv.now.text (merkleRoot [loanId])
    (toHex (batchSigner.sign ((fromHex (merkleRoot [loanId])).getD []))) (toHex batchSigner.publicKey) batchSigner.keyId
    proofs

theorem loanBatch_wf {proofs : List Json} (h : ∀ e ∈ proofs, e.wf = true) : (loanBatch proofs).wf = true := by
  have hproofs : (Json.arr proofs).wf = true := (Json.wf_arr proofs).2 h
  rw [loanBatch, batchDict, Json.wf_obj]
  simp only [List.forall_mem_cons, hproofs]
  simp [Json.wf, Json.wfMembers, Json.ofOptStr]

theorem loanBatch_accepted {proofs : List Json} (h : proofIds proofs = .ok [loanId]) :
    Accepted batchVerifier (loanBatch proofs) proofs [loanId] where
  isObj := rfl
  block_isObj := rfl
  proofs := rfl
  proofIds := h
  root := rfl
  signature := exportOf_signature batchSigner_honest _

theorem proofIds_rejectedLoan : proofIds [rejectedLoan] = .ok [loanId] := rfl

/-- What is hashed around the two batches. -/
def loanMessages : List Bytes :=
  [utf8 loanId, sha256 (utf8 loanId) ++ sha256 (utf8 loanId), utf8 (loanHash ++ ":" ++ toString (1 : ℤ)),
    utf8 (dumps loanPayload), utf8 (dumps (entryContent rejectedLoan)), utf8 (contentIdText rejectedLoan)]

/-- The digest of the content of the rejected loan. -/
def rejectedDigest : Bytes :=
  [0x7d, 0x2d, 0x75, 0x0b, 0xd2, 0xb5, 0x5d, 0x83, 0xf7, 0xee, 0xa5, 0xfa, 0xf8, 0x0f, 0x68, 0x51,
   0xed, 0xab, 0xba, 0xaa, 0xdd, 0xd8, 0xf8, 0x0c, 0x41, 0xc3, 0x72, 0x75, 0xbd, 0x8d, 0x03, 0x05]

theorem sha256_rejectedLoan : sha256 (utf8 (dumps (entryContent rejectedLoan))) = rejectedDigest :=
  sha256_dumps (by decide +kernel)

theorem rejectedLoan_idText : contentIdText rejectedLoan =
    "7d2d750bd2b55d83f7eea5faf80f6851edabbaaaddd8f80c41c37275bd8d0305:1" := by
  rw [contentIdText, contentHash, sha256Hex, sha256_rejectedLoan]
  decide

/-- The digests start with six different bytes. -/
theorem loanMessages_heads : loanMessages.map (fun m => (sha256 m).head?) =
    [some 0x35, some 0x6b, some 0xc6, some 0x1b, some 0x7d, some 0x42] := by
  have hid : utf8 loanId =
      ((sha256 (utf8 (loanHash ++ ":" ++ toString (1 : ℤ)))).flatMap hexByte).flatMap String.utf8EncodeChar := by
    rw [loanId, computeProofId, sha256Hex, toHex, utf8_ofList]
  simp only [loanMessages, List.map_cons, List.map_nil, hid, loan_idText, sha256_loanPayload, sha256_rejectedLoan,
    rejectedLoan_idText]
  decide +kernel

theorem loanMessages_collisionFree : CollisionFreeBytes {m | m ∈ loanMessages} := by
  have hnodup : (loanMessages.map fun m => (sha256 m).head?).Nodup := by
    rw [loanMessages_heads]
    decide
  exact fun a ha b hb h => List.inj_on_of_nodup_map hnodup ha hb (congrArg List.head? h)

theorem treeMessages_loan : treeMessages [loanId] ⊆ {m | m ∈ loanMessages} := by
  have hleaves : leaves [loanId] = [sha256Hex loanId, sha256Hex loanId] := rfl
  have hjoined : joined parent 2 [sha256Hex loanId, sha256Hex loanId] = [(sha256Hex loanId, sha256Hex loanId)] := by
    simp [joined, up, pad, neighbours]
  rintro m (⟨t, ht, rfl⟩ | ⟨p, hp, rfl⟩)
  · rw [List.mem_singleton.1 ht]
    simp [loanMessages]
  · rw [hleaves, List.length_cons, List.length_singleton, hjoined] at hp
    rw [List.mem_singleton.1 hp]
    simp [loanMessages, joinedBytes]

theorem contentMessages_singleton {e : Json} {ms : List Bytes} (hc : utf8 (dumps (entryContent e)) ∈ ms)
    (hi : utf8 (contentIdText e) ∈ ms) : contentMessages [e] ⊆ {m | m ∈ ms} := by
  rintro m (⟨d, hd, rfl⟩ | ⟨d, hd, rfl⟩)
  · rw [List.mem_singleton.1 hd]
    exact hc
  · rw [List.mem_singleton.1 hd]
    exact hi

theorem contentMessages_loan {p : ProofV1} (h : IsLoan p) : contentMessages [p.document] ⊆ {m | m ∈ loanMessages} := by
  have he := document_isEntry h.wf
  have hseq : p.ledger.sequenceId = 1 := h.linked.2.1
  refine contentMessages_singleton ?_ ?_
  · rw [dumps_eq_of_canon he.content_canon, h.payload]
    simp [loanMessages]
  · rw [contentIdText, entrySequence_document h.wf, hseq, he.contentHash_eq, h.payload]
    simp [loanMessages, loanHash, Json.pyStr, Json.repr]

/-- What is hashed of a batch with the loan's root and one proof. -/
theorem batchMessages_loanBatch {e : Json} (hid : proofIds [e] = .ok [loanId])
    (hcontent : contentMessages [e] ⊆ {m | m ∈ loanMessages}) : batchMessages (loanBatch [e]) ⊆ {m | m ∈ loanMessages} := by
  obtain ⟨hproofs, hids⟩ := (loanBatch_accepted hid).batchProofs_eq
  rw [batchMessages, hproofs, hids]
  exact Set.union_subset treeMessages_loan hcontent

/-- The export of the loan is the batch around its proof. -/
theorem exportOf_loan {p : ProofV1} (h : p.proofId = loanId) :
    (exportOf batchSigner loanEnv.now.text defaultTenant none none [p]).batchDict = loanBatch [p.document] := by
  simp only [exportOf, loanBatch, List.map_cons, List.map_nil, h]

theorem proofIds_loan {p : ProofV1} (hloan : IsLoan p) (h : p.proofId = loanId) :
    proofIds [p.document] = .ok [loanId] := by
  rw [← h]
  exact proofIds_documents (List.forall_mem_singleton.2 hloan.wf)

/-- The export itself meets the condition, and has its proofs. -/
theorem sameProofs_iff_loan :
    ∃ exported, buildBatchExport (Engine.fresh.run loanSigner (loanRun none)).1.db batchSigner loanEnv defaultTenant none
        none = .ok exported ∧ (verifyBatchSignature batchVerifier exported.batchDict).valid = true ∧
      ((batchProofs exported.batchDict).length = (batchProofs exported.batchDict).length ∧
        IdsFromContent exported.batchDict) := by
  obtain ⟨p, hloan, hid, -, -, hbatch⟩ := loan_exported
  have hids := proofIds_loan hloan hid
  have hdict := exportOf_loan hid
  have hvalid : (verifyBatchSignature batchVerifier (loanBatch [p.document])).valid = true := by
    rw [(loanBatch_accepted hids).verifyBatchSignature_eq]
  have hwf : (loanBatch [p.document]).wf = true :=
    loanBatch_wf (List.forall_mem_singleton.2 (p.document_wf hloan.wf))
  have hmsg := batchMessages_loanBatch hids (contentMessages_loan hloan)
  rw [← hdict] at hvalid hwf hmsg
  refine ⟨_, hbatch, hvalid, (sameProofs_iff (loanRun none) hbatch hwf hvalid rfl
    (loanMessages_collisionFree.mono (Set.union_subset hmsg hmsg))).1 ?_⟩
  exact Multiset.rel_refl_of_refl_on fun _ _ => ⟨fun _ _ => rfl, rfl, rfl⟩

/-- **An approved loan turned into a rejected one.**  The export of the loan and a batch
with another decision in its proof have one root and one signature, and the batch
is accepted, where no two of the hashed byte strings collide. -/
theorem rejected_loan_accepted :
    ∃ exported, buildBatchExport (Engine.fresh.run loanSigner (loanRun none)).1.db batchSigner loanEnv defaultTenant none
        none = .ok exported ∧
      (loanBatch [rejectedLoan]).wf = true ∧
      verifyBatchSignature batchVerifier (loanBatch [rejectedLoan]) = ⟨true, true, true, 1, none⟩ ∧
      (loanBatch [rejectedLoan]).get? "merkle_root" = exported.batchDict.get? "merkle_root" ∧
      (loanBatch [rejectedLoan]).get? "merkle_signature" = exported.batchDict.get? "merkle_signature" ∧
      CollisionFreeBytes (batchMessages (loanBatch [rejectedLoan]) ∪ batchMessages exported.batchDict) ∧
      ¬ SameProofs (loanBatch [rejectedLoan]) exported.batchDict := by
  obtain ⟨p, hloan, hid, -, -, hbatch⟩ := loan_exported
  have hdict := exportOf_loan hid
  have hacc := loanBatch_accepted proofIds_rejectedLoan
  have hrejected : contentMessages [rejectedLoan] ⊆ {m | m ∈ loanMessages} :=
    contentMessages_singleton (by simp [loanMessages]) (by simp [loanMessages])
  refine ⟨_, hbatch, ?_, hacc.verifyBatchSignature_eq, ?_, ?_, ?_, ?_⟩
  · exact loanBatch_wf (List.forall_mem_singleton.2 rfl)
  · rw [hdict]
    rfl
  · rw [hdict]
    rfl
  · rw [hdict]
    exact loanMessages_collisionFree.mono (Set.union_subset (batchMessages_loanBatch proofIds_rejectedLoan hrejected)
      (batchMessages_loanBatch (proofIds_loan hloan hid) (contentMessages_loan hloan)))
  · -- the contents have different digests
    intro hsame
    rw [SameProofs, hdict, hacc.batchProofs_eq.1, (loanBatch_accepted (proofIds_loan hloan hid)).batchProofs_eq.1] at hsame
    obtain ⟨d, hd, hcontent⟩ := Multiset.exists_mem_of_rel_of_mem hsame (List.mem_singleton_self rejectedLoan)
    rw [List.mem_singleton.1 hd] at hcontent
    have hcanon := hcontent.content_canon.trans (document_isEntry hloan.wf).content_canon
    have hdigest : rejectedDigest = loanDigest := by
      rw [← sha256_rejectedLoan, ← sha256_loanPayload, dumps_eq_of_canon hcanon, hloan.payload]
    exact absurd hdigest (by decide)

end Batch
end ProvableAi
