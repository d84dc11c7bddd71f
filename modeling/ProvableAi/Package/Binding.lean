/-
# What a signed package is bound to

The key signs two kinds of messages, without a tag that says which: the hash of
a decision and the root of an export.  Both are SHA-256 digests, one of a JSON
object, the other of joined hexadecimal digests, so the texts differ in their
first character and a signature on a decision is none on a root.

From the root back to the ledger: the joined digests have 64 characters each,
so equal texts are equal lists; equal digests are equal encodings; and an
encoding determines the six hashed fields (`SameContent`).  What is not hashed,
the instance and the time of a decision, is not bound by the signature at all:
`reattributed` shows one signature on two packages.
-/

import ProvableAi.Package.RoundTrip
import ProvableAi.Engine.Frozen

namespace ProvableAi

open HashChain

/-! ### Hashed content -/

/-- Two entries agree on the six fields that are hashed. -/
structure SameContent (e d : Json) : Prop where
  sections : ∀ k ∈ ["decision", "decision_context", "governance", "determinism"],
    (entrySection e k).canon = (entrySection d k).canon
  previousHash : (((entryBlock e).get? "previous_hash").getD (.str "")).canon =
    (((entryBlock d).get? "previous_hash").getD (.str "")).canon
  sequenceId : (((entryBlock e).get? "sequence_id").getD (.int 0)).canon =
    (((entryBlock d).get? "sequence_id").getD (.int 0)).canon

theorem wf_getD {j d : Json} (hj : j.wf = true) (hd : d.wf = true) (k : String) : ((j.get? k).getD d).wf = true := by
  cases hk : j.get? k with
  | none => exact hd
  | some v => exact Json.wf_of_get? hj hk

theorem entryContent_wf {e : Json} (h : e.wf = true) : (entryContent e).wf = true := by
  have hs : ∀ k, (entrySection e k).wf = true := wf_getD h rfl
  have hb : (entryBlock e).wf = true := wf_getD h rfl _
  have hp := wf_getD hb (d := .str "") rfl "previous_hash"
  have hq := wf_getD hb (d := .int 0) rfl "sequence_id"
  rw [entryContent, hashedContent, Json.wf_obj]
  simp [hs, hp, hq]

/-- Entries whose content is encoded alike agree on it. -/
theorem sameContent_of_dumps {e d : Json} (he : e.wf = true) (hd : d.wf = true)
    (h : dumps (entryContent e) = dumps (entryContent d)) : SameContent e d := by
  have hc := (dumps_inj (entryContent_wf he) (entryContent_wf hd)).1 h
  have hk : ∀ k, ((entryContent e).get? k).map Json.canon = ((entryContent d).get? k).map Json.canon :=
    get?_of_canon_eq (entryContent_wf he) (entryContent_wf hd) hc
  refine ⟨?_, Option.some.inj (hk "previous_hash"), Option.some.inj (hk "sequence_id")⟩
  simp only [List.forall_mem_cons]
  exact ⟨Option.some.inj (hk "decision"), Option.some.inj (hk "decision_context"),
    Option.some.inj (hk "governance"), Option.some.inj (hk "determinism"), by simp⟩

/-- Entries that agree on the hashed fields have one content. -/
theorem SameContent.content_canon {e d : Json} (h : SameContent e d) : (entryContent e).canon = (entryContent d).canon := by
  have hs := h.sections
  simp only [List.forall_mem_cons] at hs
  rw [entryContent, entryContent, hashedContent, hashedContent, Json.canon_obj, Json.canon_obj]
  simp only [List.map_cons, List.map_nil, hs.1, hs.2.1, hs.2.2.1, hs.2.2.2.1, h.previousHash, h.sequenceId]

/-! ### The root and the ledger -/

/-- The texts that are hashed for the root of a ledger: the joined hashes, and the
encoded content of every entry. -/
def ledgerTexts (es : List Json) : Set String :=
  insert (String.join (es.map contentHash)) {t | ∃ e ∈ es, t = dumps (entryContent e)}

/-- Joined digests are told apart. -/
theorem join_inj {xs ys : List String} (hx : ∀ x ∈ xs, x.length = 64) (hy : ∀ y ∈ ys, y.length = 64)
    (h : String.join xs = String.join ys) : xs = ys := by
  have hl : (xs.map String.toList).flatten = (ys.map String.toList).flatten := by
    rw [← List.flatMap_def, ← List.flatMap_def, ← String.toList_join, ← String.toList_join, h]
  have hlen : ∀ {zs : List String}, (∀ z ∈ zs, z.length = 64) → ∀ l ∈ zs.map String.toList, l.length = 64 := by
    intro zs hz l hl
    obtain ⟨z, hzm, rfl⟩ := List.mem_map.1 hl
    rw [String.length_toList, hz z hzm]
  have heq := flatten_inj_of_length (by decide) (hlen hx) (hlen hy) hl
  exact List.map_injective_iff.2 (fun _ _ => String.toList_inj.1) heq

theorem contentHash_length (e : Json) : (contentHash e).length = 64 := sha256Hex_length _

/-- Equal digests of the entries' content, position by position. -/
theorem sameContent_of_hashes {es ds : List Json} (he : ∀ e ∈ es, e.wf = true) (hd : ∀ d ∈ ds, d.wf = true)
    (hsha : CollisionFree ({t | ∃ e ∈ es, t = dumps (entryContent e)} ∪ {t | ∃ d ∈ ds, t = dumps (entryContent d)}))
    (h : es.map contentHash = ds.map contentHash) : List.Forall₂ SameContent es ds := by
  have hall : List.Forall₂ (fun e d => contentHash e = contentHash d) es ds :=
    List.forall₂_map_left_iff.1 (List.forall₂_map_right_iff.1 (List.forall₂_eq_eq_eq.symm ▸ h))
  refine List.forall₂_iff_zip.2 ⟨hall.length_eq, fun {e d} hz => ?_⟩
  have hem := (List.of_mem_zip hz).1
  have hdm := (List.of_mem_zip hz).2
  refine sameContent_of_dumps (he e hem) (hd d hdm) (hsha (.inl ⟨e, hem, rfl⟩) (.inr ⟨d, hdm, rfl⟩) ?_)
  exact (List.forall₂_iff_zip.1 hall).2 hz

/-- **The root binds the content of the ledger**, where no two of the hashed texts
collide. -/
theorem sameContent_of_root {es ds : List Json} (he : ∀ e ∈ es, e.wf = true) (hd : ∀ d ∈ ds, d.wf = true)
    (hsha : CollisionFree (ledgerTexts es ∪ ledgerTexts ds)) (h : chainRoot es = chainRoot ds) :
    List.Forall₂ SameContent es ds := by
  have hjoin : String.join (es.map contentHash) = String.join (ds.map contentHash) :=
    hsha (.inl (Set.mem_insert _ _)) (.inr (Set.mem_insert _ _)) h
  have hlen : ∀ xs : List Json, ∀ x ∈ xs.map contentHash, x.length = 64 := by
    intro xs x hx
    obtain ⟨e, -, rfl⟩ := List.mem_map.1 hx
    exact contentHash_length e
  refine sameContent_of_hashes he hd (hsha.mono ?_) (join_inj (hlen es) (hlen ds) hjoin)
  exact Set.union_subset_union (Set.subset_insert _ _) (Set.subset_insert _ _)

/-! ### What the key has signed -/

/-- The messages that runs over fresh databases pass to `sign_hash`, for a set of
runs. -/
def signedMessages (signer : Signer) (runs : Set (List Op)) : Set Bytes :=
  {m | ∃ ops ∈ runs, ∃ ev ∈ (Engine.fresh.run signer ops).2, m ∈ ev.sent}

/-- The texts whose digests a call signs, and what those are made of. -/
def Engine.signedTexts (s : Engine) : Op → Set String
  | .recordDecision _ a => {t | ∃ d, draft s.db a = .ok d ∧ t = dumps d.payload}
  | .exportProof _ i =>
    {t | ∃ ds, proofDicts (s.db.getLedgerChain i defaultTenant) = .ok ds ∧ t ∈ ledgerTexts ds}
  | _ => ∅

/-- Those of all calls of the runs. -/
def historyTexts (signer : Signer) (runs : Set (List Op)) : Set String :=
  {t | ∃ before op after, before ++ op :: after ∈ runs ∧ t ∈ (Engine.fresh.run signer before).1.signedTexts op}

/-- The texts that `verify_package` hashes for the root of a package. -/
def packageTexts (j : Json) : Set String :=
  {t | ∃ es, (proofBlock j).get? "ledger" = some (.arr es) ∧ t ∈ ledgerTexts es}

/-- A call of `export_proof` in the run collects the ledger `ds`; it returns a package
with it unless the signer raises. -/
def Exports (signer : Signer) (ops : List Op) (ds : List Json) : Prop :=
  ∃ before env i after, ops = before ++ .exportProof env i :: after ∧
    proofDicts ((Engine.fresh.run signer before).1.db.getLedgerChain i defaultTenant) = .ok ds ∧
    (env.signFault = none → ∃ package,
      ((Engine.fresh.run signer before).1.step signer (.exportProof env i)).1 = .package package ∧
        (proofBlock package).get? "ledger" = some (.arr ds))

section

variable {signer : Signer}

/-- The entries that `export_proof` collects are those of the recorded proofs. -/
theorem Inv.proofDicts_eq {db : Db} {acc : List (DecisionArgs × ProofV1)} (h : Inv signer db acc) (i : String) :
    proofDicts (db.getLedgerChain i defaultTenant) =
      .ok (((onInstance i acc).map Prod.snd).map ProofV1.document) := by
  rw [h.getLedgerChain_eq]
  exact proofDicts_rows (h.dump_wf i)

/-- The hashes of the documents are the recorded ones. -/
theorem Inv.contentHash_documents {db : Db} {acc : List (DecisionArgs × ProofV1)} (h : Inv signer db acc) (i : String) :
    (((onInstance i acc).map Prod.snd).map ProofV1.document).map contentHash =
      ((onInstance i acc).map Prod.snd).map fun p => p.ledger.currentHash.text := by
  refine contentHash_entries (List.forall₂_map_left_iff.2 (List.forall₂_same.2 fun p hp => ?_)) fun p hp => ?_
  · exact document_isEntry (h.dump_wf i p hp)
  · obtain ⟨ap, hap, rfl⟩ := List.mem_map.1 hp
    exact (h.built ap (List.mem_filter.1 hap).1).hash_eq

/-- An export passes the root of the recorded proofs. -/
theorem Inv.sent_exportProof {s : Engine} {acc : List (DecisionArgs × ProofV1)} (h : Inv signer s.db acc)
    (env : CallEnv) (i : String) :
    s.sent (.exportProof env i) = [sha256 (utf8 (rootText ((onInstance i acc).map Prod.snd)))] := by
  have hds := h.proofDicts_eq i
  have hroot : s.db.computeInstanceRoot i = .ok (sha256Hex (rootText ((onInstance i acc).map Prod.snd))) := by
    rw [Db.computeInstanceRoot, hds]
    exact instanceRoot_documents (h.dump_wf i)
  rw [Engine.sent, hds, ok_bind, hroot]
  simp only [fromHex_sha256Hex, Option.getD_some]

/-- **What is passed to `sign_hash`**: the digest of a decision's payload, or the root
of the ledger that an export collects. -/
theorem Inv.sent_cases {s : Engine} {acc : List (DecisionArgs × ProofV1)} (h : Inv signer s.db acc) {op : Op}
    {m : Bytes} (hm : m ∈ s.sent op) :
    (∃ env a d, op = .recordDecision env a ∧ draft s.db a = .ok d ∧ m = sha256 (utf8 (dumps d.payload))) ∨
      ∃ env i ds, op = .exportProof env i ∧ proofDicts (s.db.getLedgerChain i defaultTenant) = .ok ds ∧
        (∀ d ∈ ds, d.wf = true) ∧ m = sha256 (utf8 (String.join (ds.map contentHash))) := by
  cases op with
  | recordDecision env a =>
    rw [Engine.sent] at hm
    split at hm
    · rename_i x hx
      obtain ⟨d, hd, hh⟩ := bind_eq_ok_iff.1 hx
      obtain ⟨-, rfl⟩ := Draft.hash_eq_ok.1 hh
      rw [List.mem_singleton, fromHex_sha256Hex] at hm
      exact .inl ⟨env, a, d, rfl, hd, hm⟩
    · cases hm
  | exportProof env i =>
    have hds := h.proofDicts_eq i
    rw [h.sent_exportProof, List.mem_singleton, rootText, ← h.contentHash_documents i] at hm
    refine .inr ⟨env, i, _, rfl, hds, fun d hd => ?_, hm⟩
    obtain ⟨p, hp, rfl⟩ := List.mem_map.1 hd
    exact p.document_wf (h.dump_wf i p hp)
  | _ => cases hm

/-- An export that collects a ledger, as an `Exports`. -/
theorem exports_of_proofDicts {before after : List Op} {env : CallEnv} {i : String} {ds : List Json}
    (hds : proofDicts ((Engine.fresh.run signer before).1.db.getLedgerChain i defaultTenant) = .ok ds) :
    Exports signer (before ++ .exportProof env i :: after) ds := by
  refine ⟨before, env, i, after, rfl, hds, fun hf => ?_⟩
  have hinv := inv_run signer before
  obtain ⟨t, hstep, -, -⟩ := hinv.step_exportProof env hf i
  refine ⟨_, congrArg Prod.fst hstep, ?_⟩
  rw [hinv.proofDicts_eq] at hds
  rw [← Except.ok.inj hds]
  rfl

end

/-! ### Decisions and roots -/

/-- The encoding of an object begins with a brace. -/
theorem dumps_obj_head (kvs : List (String × Json)) : (dumps (.obj kvs)).toList.head? = some '\x7b' := by
  rw [dumps, String.toList_ofList, Json.canon_obj]
  cases Json.sortKeys (kvs.map fun kv => (kv.1, kv.2.canon)) with
  | nil => rfl
  | cons kv kvs => rfl

/-- A decision's signature is no root's: no joined hashes are an encoded object. -/
theorem join_hashes_ne_dumps {es : List Json} (hne : es ≠ []) (kvs : List (String × Json)) :
    String.join (es.map contentHash) ≠ dumps (.obj kvs) := by
  intro h
  obtain ⟨e, rest, rfl⟩ := List.exists_cons_of_ne_nil hne
  have hhead := dumps_obj_head kvs
  rw [← h, String.toList_join, List.map_cons, List.flatMap_cons] at hhead
  have hlower : (contentHash e).toList.all isLowerHex = true := sha256Hex_lower _
  cases hc : (contentHash e).toList with
  | nil =>
    have hlen := contentHash_length e
    rw [← String.length_toList, hc] at hlen
    cases hlen
  | cons c cs =>
    rw [hc] at hhead hlower
    rw [List.all_cons, Bool.and_eq_true] at hlower
    obtain rfl : c = '\x7b' := Option.some.inj hhead
    exact absurd hlower.1 (by decide)

theorem entries_wf {j : Json} (hj : j.wf = true) {es : List Json}
    (h : (proofBlock j).get? "ledger" = some (.arr es)) : ∀ e ∈ es, e.wf = true :=
  (Json.wf_arr es).1 (Json.wf_of_get? (wf_getD hj rfl "proof") h)

/-- The verified message of an accepted package. -/
theorem Accepted.verified {ed : Ed25519} {j : Json} {es : List Json} (h : Accepted ed j es) :
    ∃ pub sig pk s, textField j "public_key" = .str pub ∧ textField j "signature" = .str sig ∧
      fromHex pub = some pk ∧ fromHex sig = some s ∧
      ed pk (sha256 (utf8 (String.join (es.map contentHash)))) s = true := by
  have hv := h.verifies
  rw [chainRoot] at hv
  unfold verifyHexEd25519 at hv
  split at hv
  · rename_i pub message sig hpub hmsg hsig
    rw [fromHex_sha256Hex] at hmsg
    obtain rfl := Option.some.inj hmsg
    unfold verifyEd25519 at hv
    split at hv
    · rename_i pk s hpk hs
      exact ⟨pub, sig, pk, s, hpub, hsig, hpk, hs, hv⟩
    · cases hv
  · cases hv

/-- **An accepted package has the content of an export.**  Let the key verify only
what some runs of the program passed to `sign_hash`, the hashes of decisions and
the roots of exports.  A package that `verify_package` accepts under this key has
the length of the ledger of some export and, position by position, its hashed
content. -/
theorem verifyPackage_binds {ed : Ed25519} {signer : Signer} {runs : Set (List Op)} {j : Json} {pub : String}
    {cs : List CheckResult} {m : List (String × Json)} (hj : j.wf = true)
    (hv : verifyPackage ed j = .ok (true, cs, m)) (hpub : j.get? "public_key" = some (.str pub))
    (hkey : fromHex pub = some signer.publicKey)
    (hunforged : ∀ msg sig, ed signer.publicKey msg sig = true → msg ∈ signedMessages signer runs)
    (hsha : CollisionFree (packageTexts j ∪ historyTexts signer runs)) :
    ∃ es, (proofBlock j).get? "ledger" = some (.arr es) ∧
      ∃ ops ∈ runs, ∃ ds, Exports signer ops ds ∧ es.length = ds.length ∧ List.Forall₂ SameContent es ds := by
  obtain ⟨es, hacc⟩ := accepted_of_verifyPackage hv
  obtain ⟨pub', sig, pk, s, hp, -, hpk, -, hver⟩ := hacc.verified
  obtain rfl : pub = pub' := by
    rw [textField, hpub] at hp
    exact Json.str.inj hp
  obtain rfl := Option.some.inj (hkey.symm.trans hpk)
  have hes : ∀ t ∈ ledgerTexts es, t ∈ packageTexts j := fun t ht => ⟨es, hacc.ledger, ht⟩
  obtain ⟨ops, hops, ev, hev, hsent⟩ := hunforged _ _ hver
  obtain ⟨before, after, rfl, -, hsentEq⟩ := Engine.mem_run hev
  rw [hsentEq] at hsent
  refine ⟨es, hacc.ledger, _, hops, ?_⟩
  rcases (inv_run signer before).sent_cases hsent with ⟨env, a, d, hop, hd, hmsg⟩ | ⟨env, i, ds, hop, hds, hwf, hmsg⟩
  · -- the message is no decision's
    have htext : dumps d.payload ∈ historyTexts signer runs :=
      ⟨before, ev.op, after, hops, by rw [hop]; exact ⟨d, hd, rfl⟩⟩
    have hjoin : String.join (es.map contentHash) = dumps d.payload :=
      hsha (.inl (hes _ (Set.mem_insert _ _))) (.inr htext) (congrArg toHex hmsg)
    exact absurd hjoin (join_hashes_ne_dumps hacc.ne _)
  · have htexts : ∀ t ∈ ledgerTexts ds, t ∈ historyTexts signer runs := fun t ht =>
      ⟨before, ev.op, after, hops, by rw [hop]; exact ⟨ds, hds, ht⟩⟩
    have hsame := sameContent_of_root (entries_wf hj hacc.ledger) hwf
      (hsha.mono (Set.union_subset_union hes htexts)) (congrArg toHex hmsg)
    rw [hop]
    exact ⟨ds, exports_of_proofDicts hds, hsame.length_eq, hsame⟩

/-! The loan's package, under a verifier that knows the one signature over its root. -/

/-- The signature over the root of the loan's chain. -/
def rootEd25519 : Ed25519 := .ofTable rfcPublicKey [(sha256 (utf8 loanHash), rootSignature)]

/-- Approvals, the decision on the loan, and its export. -/
def loanExport : List Op := loanRun none ++ [.exportProof loanEnv "loan_1"]

/-- A proof of the loan's first decision. -/
structure IsLoan (p : ProofV1) : Prop where
  wf : p.dump.wf = true
  payload : p.payload = loanPayload
  currentHash : p.ledger.currentHash.text = loanHash
  linked : Linked proofReading genesisHash 1 [p]

theorem IsLoan.rootText {p : ProofV1} (h : IsLoan p) : rootText [p] = loanHash := by
  simp [ProvableAi.rootText, h.currentHash]

/-- Its package is accepted, for any instance. -/
theorem IsLoan.accepted {p : ProofV1} (h : IsLoan p) (i : String) :
    ∃ cs m, verifyPackage rootEd25519 (chainPackage loanSigner i [p]) = .ok (true, cs, m) ∧ cs.length = 4 ∧
      ∀ c ∈ cs, c.passed = true ∧ c.skipped = false := by
  have hv : rootEd25519 loanSigner.publicKey (sha256 (utf8 (ProvableAi.rootText [p])))
      (loanSigner.sign (sha256 (utf8 (ProvableAi.rootText [p])))) = true := by
    have hs : loanSign (sha256 (utf8 loanHash)) = rootSignature := if_pos rfl
    rw [h.rootText]
    show Ed25519.ofTable rfcPublicKey _ rfcPublicKey _ (loanSign _) = true
    rw [hs]
    exact Ed25519.ofTable_of_mem (List.mem_singleton_self _)
  have hwf : ∀ q ∈ [p], q.dump.wf = true := List.forall_mem_singleton.2 h.wf
  have hh : ∀ q ∈ [p], q.ledger.currentHash.text = sha256Hex (dumps q.payload) :=
    List.forall_mem_singleton.2 (by rw [h.currentHash, h.payload, loanHash])
  obtain ⟨es, -, hacc⟩ := chainPackage_accepted hv (by simp) hwf hh h.linked (chainPackage_wf hwf) rfl
  obtain ⟨cs, m, hrun, hcs, hall⟩ := hacc.verifyPackage
  refine ⟨cs, m, hrun, hcs, fun c hc => ⟨(hall c hc).1, ?_⟩⟩
  have ht : (textField (chainPackage loanSigner i [p]) "package_hash").truthy = true := truthy_sha256Hex _
  rw [← Bool.not_eq_true]
  exact fun hskip => absurd ((hall c hc).2 hskip) (by simp [ht])

theorem IsLoan.signature {p : ProofV1} (h : IsLoan p) (i : String) :
    textField (chainPackage loanSigner i [p]) "signature" = .str (toHex (loanSign (sha256 (utf8 loanHash)))) := by
  rw [← h.rootText]
  rfl

theorem publicKey_chainPackage (signer : Signer) (i : String) (p : ProofV1) :
    textField (chainPackage signer i [p]) "public_key" = .str (toHex signer.publicKey) := rfl

theorem IsLoan.ledgerTexts {p : ProofV1} (h : IsLoan p) :
    ledgerTexts [p.document] ⊆ {loanHash, dumps loanPayload} := by
  have he := document_isEntry h.wf
  rintro t (rfl | ⟨e, hem, rfl⟩)
  · left
    simp [he.contentHash_eq, h.payload, loanHash]
  · right
    rw [List.mem_singleton.1 hem, dumps_eq_of_canon he.content_canon, h.payload]
    rfl

theorem IsLoan.packageTexts {p : ProofV1} (h : IsLoan p) (i : String) :
    packageTexts (chainPackage loanSigner i [p]) ⊆ {loanHash, dumps loanPayload} := by
  rintro t ⟨es, hes, ht⟩
  obtain rfl : [p.document] = es := by
    obtain hes : some (Json.arr [p.document]) = some (.arr es) := hes
    simpa using hes
  exact h.ledgerTexts ht

theorem loan_collisionFree : CollisionFree {loanHash, dumps loanPayload} := by
  refine Set.injOn_pair.2 fun h => absurd h ?_
  intro h
  rw [sha256Hex, sha256Hex, toHex_inj, sha256_loanPayload] at h
  have hhead := loanHash_heads.1
  rw [h] at hhead
  exact absurd hhead (by decide)

/-- The proof that the run records is the loan's. -/
theorem isLoan_of_buildProof {p : ProofV1}
    (h : buildProof approved.db loanSigner loanEnv (loanCall "pending" "approved" none) = .ok p) : IsLoan p := by
  obtain ⟨hb, hprev, hseq⟩ := buildProof_ok approved_inv.chained approved_inv.hexRows h
  have hp : p.payload = loanPayload :=
    loanCall_payload approved_inv.chained approved_inv.hexRows (by decide) (by decide) h
  exact ⟨hb.wf, hp, by rw [hb.hash_eq, hp, loanHash], hprev, hseq, trivial⟩

/-- What the run hashes for what it signs. -/
theorem historyTexts_loanExport : historyTexts loanSigner {loanExport} ⊆ {loanHash, dumps loanPayload} := by
  obtain ⟨p, hb, -, hrec⟩ := loanRun_records none
  have hloan := isLoan_of_buildProof hb
  have happroval : ∀ {s : Engine} {op : Op} {t : String}, s.signedTexts op = ∅ → t ∈ s.signedTexts op →
      t ∈ ({loanHash, dumps loanPayload} : Set String) := fun he ht => absurd (he ▸ ht) (Set.notMem_empty _)
  rintro t ⟨before, op, after, hmem, ht⟩
  rw [Set.mem_singleton_iff] at hmem
  -- the calls of the run, one by one
  match before, hmem with
  | [], h =>
    obtain ⟨rfl, -⟩ := List.cons.inj h
    exact happroval rfl ht
  | [_], h =>
    obtain ⟨rfl, -⟩ := List.cons.inj (List.cons.inj h).2
    exact happroval rfl ht
  | [_, _], h =>
    obtain ⟨rfl, -⟩ := List.cons.inj (List.cons.inj (List.cons.inj h).2).2
    exact happroval rfl ht
  | [a, b, c], h =>
    have hs : [a, b, c] = approvals ∧ op = .recordDecision loanEnv (loanCall "pending" "approved" none) := by
      simp only [loanExport, loanRun, approvals, List.cons_append, List.nil_append, List.cons.injEq] at h
      exact ⟨by rw [h.1, h.2.1, h.2.2.1]; rfl, h.2.2.2.1⟩
    rw [hs.1, hs.2] at ht
    obtain ⟨d, hd, rfl⟩ := ht
    obtain ⟨d', hd', hsign⟩ := bind_eq_ok_iff.1 hb
    obtain rfl := Except.ok.inj (hd.symm.trans hd')
    have hdraft := draft_ok approved_inv.chained approved_inv.hexRows hd
    obtain ⟨-, hsigned⟩ := Draft.sign_signed (hdraft.previousHash ▸ tipOf_hex approved_inv.hexRows _) hsign
    right
    rw [← hsigned.payload, hloan.payload]
    rfl
  | [a, b, c, d], h =>
    have hs : [a, b, c, d] = loanRun none ∧ op = .exportProof loanEnv "loan_1" := by
      simp only [loanExport, loanRun, approvals, List.cons_append, List.nil_append, List.cons.injEq] at h
      exact ⟨by rw [h.1, h.2.1, h.2.2.1, h.2.2.2.1]; rfl, h.2.2.2.2.1⟩
    rw [hs.1, hs.2] at ht
    obtain ⟨ds, hds, ht⟩ := ht
    have hinv := inv_run loanSigner (loanRun none)
    rw [hinv.proofDicts_eq, hrec] at hds
    have hds : [p.document] = ds := by simpa [onInstance, loanCall] using hds
    rw [← hds] at ht
    exact hloan.ledgerTexts ht
  | a :: b :: c :: d :: e :: rest, h =>
    have hlen := congrArg List.length h
    simp only [List.cons_append, List.length_cons, List.length_append] at hlen
    have hfive : loanExport.length = 5 := rfl
    omega

/-- The loan's package is that of an export of the run. -/
theorem verifyPackage_binds_loan :
    ∃ j, ((Engine.fresh.run loanSigner (loanRun none)).1.step loanSigner
        (.exportProof loanEnv "loan_1")).1 = .package j ∧
      (∃ cs m, verifyPackage rootEd25519 j = .ok (true, cs, m)) ∧
      ∃ es, (proofBlock j).get? "ledger" = some (.arr es) ∧
        ∃ ops ∈ ({loanExport} : Set (List Op)), ∃ ds, Exports loanSigner ops ds ∧ es.length = ds.length ∧
          List.Forall₂ SameContent es ds := by
  obtain ⟨p, frozen, hb, hrec, hstep, -, -⟩ := loanRun_exports
  have hloan := isLoan_of_buildProof hb
  obtain ⟨cs, m, hv, -, -⟩ := hloan.accepted "loan_1"
  have hwf : ∀ q ∈ [p], q.dump.wf = true := List.forall_mem_singleton.2 hloan.wf
  have hinv := inv_run loanSigner (loanRun none)
  have hsent : sha256 (utf8 loanHash) ∈ (Engine.fresh.run loanSigner (loanRun none)).1.sent
      (.exportProof loanEnv "loan_1") := by
    have hon : onInstance "loan_1" (recorded (Engine.fresh.run loanSigner (loanRun none)).2) =
        [(loanCall "pending" "approved" none, p)] := by
      rw [hrec]
      simp [onInstance, loanCall]
    rw [hinv.sent_exportProof, hon, List.mem_singleton, ← hloan.rootText]
    rfl
  refine ⟨_, congrArg Prod.fst hstep, ⟨cs, m, hv⟩, verifyPackage_binds (chainPackage_wf hwf) hv rfl
    (fromHex_toHex _) ?_ ?_⟩
  · intro msg sig h
    obtain ⟨-, rfl, -⟩ : loanSigner.publicKey = rfcPublicKey ∧ msg = sha256 (utf8 loanHash) ∧ sig = rootSignature := by
      simpa [rootEd25519, Ed25519.ofTable] using h
    exact ⟨loanExport, rfl, _, Engine.mem_run_concat _ _ _, hsent⟩
  · exact loan_collisionFree.mono (Set.union_subset (hloan.packageTexts _) historyTexts_loanExport)

/-! ### Two packages, one signature -/

/-- **One signature, one content.**  Two accepted packages with the same key and the
same signature, where the signature is on one message, have ledgers of one
length with the same hashed content, position by position.  Where they carry the
same `package_hash` too, the entries are equal as JSON, so the instance and the
time of each is the same; the signature alone covers neither. -/
theorem sameContent_of_signature {ed : Ed25519} {j k : Json} {cs ds : List CheckResult}
    {m n : List (String × Json)} (hj : j.wf = true) (hk : k.wf = true)
    (hvj : verifyPackage ed j = .ok (true, cs, m)) (hvk : verifyPackage ed k = .ok (true, ds, n))
    (hpub : textField j "public_key" = textField k "public_key")
    (hsig : textField j "signature" = textField k "signature")
    (hone : ∀ pk s msg msg', ed pk msg s = true → ed pk msg' s = true → msg = msg')
    (hsha : CollisionFree (packageTexts j ∪ packageTexts k)) :
    ∃ es fs, (proofBlock j).get? "ledger" = some (.arr es) ∧ (proofBlock k).get? "ledger" = some (.arr fs) ∧
      es.length = fs.length ∧ List.Forall₂ SameContent es fs ∧
      ((textField j "package_hash").truthy = true → textField j "package_hash" = textField k "package_hash" →
        CollisionFree {dumps (.arr es), dumps (.arr fs)} → es.map Json.canon = fs.map Json.canon) := by
  obtain ⟨es, hj'⟩ := accepted_of_verifyPackage hvj
  obtain ⟨fs, hk'⟩ := accepted_of_verifyPackage hvk
  obtain ⟨pub, sig, pk, s, hp, hs, hpk, hsg, hver⟩ := hj'.verified
  obtain ⟨pub', sig', pk', s', hp', hs', hpk', hsg', hver'⟩ := hk'.verified
  obtain rfl : pub = pub' := Json.str.inj (by rw [← hp, ← hp', hpub])
  obtain rfl : sig = sig' := Json.str.inj (by rw [← hs, ← hs', hsig])
  obtain rfl := Option.some.inj (hpk.symm.trans hpk')
  obtain rfl := Option.some.inj (hsg.symm.trans hsg')
  have hroot : chainRoot es = chainRoot fs := congrArg toHex (hone _ _ _ _ hver hver')
  have hes : ∀ t ∈ ledgerTexts es, t ∈ packageTexts j := fun t ht => ⟨es, hj'.ledger, ht⟩
  have hfs : ∀ t ∈ ledgerTexts fs, t ∈ packageTexts k := fun t ht => ⟨fs, hk'.ledger, ht⟩
  have hwe := entries_wf hj hj'.ledger
  have hwf := entries_wf hk hk'.ledger
  have hsame := sameContent_of_root hwe hwf (hsha.mono (Set.union_subset_union hes hfs)) hroot
  refine ⟨es, fs, hj'.ledger, hk'.ledger, hsame.length_eq, hsame, fun ht heq hcf => ?_⟩
  have hhash : packageHash es = packageHash fs := by
    have h₁ := hj'.packageHash ht
    have h₂ := hk'.packageHash (heq ▸ ht)
    exact Json.str.inj (h₁.symm.trans (heq.trans h₂))
  have htext : dumps (.arr es) = dumps (.arr fs) := hcf (by simp) (by simp) hhash
  have hcanon := (dumps_inj ((Json.wf_arr es).2 hwe) ((Json.wf_arr fs).2 hwf)).1 htext
  rw [Json.canon_arr, Json.canon_arr] at hcanon
  exact Json.arr.inj hcanon

theorem rootEd25519_one (pk s msg msg' : Bytes) (h : rootEd25519 pk msg s = true) (h' : rootEd25519 pk msg' s = true) :
    msg = msg' := by
  have hm : pk = rfcPublicKey ∧ msg = sha256 (utf8 loanHash) ∧ s = rootSignature := by
    simpa [rootEd25519, Ed25519.ofTable] using h
  have hm' : pk = rfcPublicKey ∧ msg' = sha256 (utf8 loanHash) ∧ s = rootSignature := by
    simpa [rootEd25519, Ed25519.ofTable] using h'
  rw [hm.2.1, hm'.2.1]

theorem loanProof_isLoan (i t : String) (hi : i ≠ "") (hl : 20 ≤ t.length) (hz : endsWithZ t = true) :
    IsLoan (loanProof i t hi hl hz) where
  wf := rfl
  payload := loanProof_payload i t hi hl hz
  currentHash := rfl
  linked := ⟨rfl, rfl, trivial⟩

/-- One ledger exported under two instances: the entries are the same. -/
theorem sameContent_of_signature_loan :
    ∃ es fs, (proofBlock (chainPackage loanSigner "loan_1" [loanProofs.1])).get? "ledger" = some (.arr es) ∧
      (proofBlock (chainPackage loanSigner "loan_2" [loanProofs.1])).get? "ledger" = some (.arr fs) ∧
      es.length = fs.length ∧ List.Forall₂ SameContent es fs ∧ es.map Json.canon = fs.map Json.canon := by
  have hloan : IsLoan loanProofs.1 := loanProofs_fst loanProof_isLoan
  have hwf : ∀ q ∈ [loanProofs.1], q.dump.wf = true := List.forall_mem_singleton.2 hloan.wf
  obtain ⟨cs, m, hv, -, -⟩ := hloan.accepted "loan_1"
  obtain ⟨ds, n, hw, -, -⟩ := hloan.accepted "loan_2"
  obtain ⟨es, fs, hes, hfs, hlen, hsame, hall⟩ := sameContent_of_signature (chainPackage_wf hwf)
    (chainPackage_wf hwf) hv hw rfl rfl rootEd25519_one
    (loan_collisionFree.mono (Set.union_subset (hloan.packageTexts _) (hloan.packageTexts _)))
  refine ⟨es, fs, hes, hfs, hlen, hsame, hall (truthy_sha256Hex _) rfl ?_⟩
  -- the two ledgers are one
  obtain rfl : es = fs := Json.arr.inj (Option.some.inj (hes.symm.trans hfs))
  rw [Set.pair_eq_singleton]
  exact Set.injOn_singleton _ _

/-- **A signed history re-attributed and re-dated.**  Two packages with one key and
one signature, both accepted with no check skipped, of another instance and with
another time in the entry, under a verifier that knows no signature but this one
on no other message. -/
theorem reattributed :
    ∃ j k, (∃ cs m, verifyPackage rootEd25519 j = .ok (true, cs, m) ∧ ∀ c ∈ cs, c.passed = true ∧ c.skipped = false) ∧
      (∃ cs m, verifyPackage rootEd25519 k = .ok (true, cs, m) ∧ ∀ c ∈ cs, c.passed = true ∧ c.skipped = false) ∧
      textField j "public_key" = textField k "public_key" ∧ textField j "signature" = textField k "signature" ∧
      (∀ pk s msg msg', rootEd25519 pk msg s = true → rootEd25519 pk msg' s = true → msg = msg') ∧
      CollisionFree (packageTexts j ∪ packageTexts k) ∧
      (proofBlock j).get? "instance_id" = some (.str "loan_1") ∧
      (proofBlock k).get? "instance_id" = some (.str "loan_2") ∧
      ∃ e f, (proofBlock j).get? "ledger" = some (.arr [e]) ∧ (proofBlock k).get? "ledger" = some (.arr [f]) ∧
        e.get? "instance_id" = some (.str "loan_1") ∧ f.get? "instance_id" = some (.str "loan_2") ∧
        (entryBlock e).get? "timestamp" = some (.str "2026-01-01T00:00:00Z") ∧
        (entryBlock f).get? "timestamp" = some (.str "2026-02-01T00:00:00Z") := by
  obtain ⟨p, hp, hpi, hpt⟩ : ∃ p, IsLoan p ∧ p.instanceId = "loan_1" ∧ p.ledger.timestamp = "2026-01-01T00:00:00Z" :=
    ⟨loanProofs.1, loanProofs_fst loanProof_isLoan, rfl, rfl⟩
  obtain ⟨q, hq, hqi, hqt⟩ : ∃ q, IsLoan q ∧ q.instanceId = "loan_2" ∧ q.ledger.timestamp = "2026-02-01T00:00:00Z" :=
    ⟨loanProofs.2, loanProofs_snd loanProof_isLoan, rfl, rfl⟩
  obtain ⟨cs, m, hv, -, hc⟩ := hp.accepted "loan_1"
  obtain ⟨ds, n, hw, -, hd⟩ := hq.accepted "loan_2"
  have ep := document_isEntry hp.wf
  have eq := document_isEntry hq.wf
  refine ⟨_, _, ⟨cs, m, hv, hc⟩, ⟨ds, n, hw, hd⟩,
    (publicKey_chainPackage ..).trans (publicKey_chainPackage ..).symm, (hp.signature _).trans (hq.signature _).symm,
    rootEd25519_one, loan_collisionFree.mono (Set.union_subset (hp.packageTexts _) (hq.packageTexts _)), rfl, rfl,
    p.document, q.document, rfl, rfl, ?_, ?_, ?_, ?_⟩
  · rw [← hpi]
    exact get?_str_of_canon_eq ep.wf hp.wf ep.canon rfl
  · rw [← hqi]
    exact get?_str_of_canon_eq eq.wf hq.wf eq.canon rfl
  · rw [← hpt]
    exact ep.block_str rfl
  · rw [← hqt]
    exact eq.block_str rfl

end ProvableAi
