/-
# What is exported is accepted

The package that `export_proof` returns, written to a file and read back, under
the two stand-alone verifiers.  A file may hold the members of an object in any
order, so the statements are about every value that is equal to the package as
JSON (`canon`).

`IsEntry.contentHash_eq` is where the three implementations of the hash meet: an
entry that is a recorded proof up to the order of its members has the hash the
engine put into it.
-/

import ProvableAi.Package.Verify

namespace ProvableAi

open HashChain

/-! ### An entry that is a recorded proof -/

/-- Values that are equal as JSON have the same members, up to order below. -/
theorem get?_of_canon_eq {a b : Json} (ha : a.wf = true) (hb : b.wf = true) (h : a.canon = b.canon) (k : String) :
    (a.get? k).map Json.canon = (b.get? k).map Json.canon := by
  rw [← Json.get?_canon ha, h, Json.get?_canon hb]

/-- A text member of one is a text member of the other. -/
theorem get?_str_of_canon_eq {a b : Json} (ha : a.wf = true) (hb : b.wf = true) (h : a.canon = b.canon)
    {k s : String} (hk : b.get? k = some (.str s)) : a.get? k = some (.str s) := by
  have hg := get?_of_canon_eq ha hb h k
  rw [hk] at hg
  obtain ⟨v, hv, hc⟩ := Option.map_eq_some_iff.1 hg
  rw [hv, Json.canon_eq_str.1 hc]

/-- An integer of the package is an integer of the value. -/
theorem get?_int_of_canon_eq {a b : Json} (ha : a.wf = true) (hb : b.wf = true) (h : a.canon = b.canon)
    {k : String} {n : ℤ} (hk : b.get? k = some (.int n)) : a.get? k = some (.int n) := by
  have hg := get?_of_canon_eq ha hb h k
  rw [hk] at hg
  obtain ⟨v, hv, hc⟩ := Option.map_eq_some_iff.1 hg
  have hv' : v = .int n := by cases v <;> simp_all [Json.canon_obj]
  rw [hv, hv']

theorem isObj_canon (j : Json) : j.canon.isObj = j.isObj := by
  cases j <;> simp [Json.isObj, Json.canon_obj]

theorem dumps_eq_of_canon {a b : Json} (h : a.canon = b.canon) : dumps a = dumps b := by
  rw [dumps, dumps, h]

/-- `e` is the recorded proof `p`, up to the order of members. -/
structure IsEntry (e : Json) (p : ProofV1) : Prop where
  wf : e.wf = true
  canon : e.canon = p.dump.canon
  dump_wf : p.dump.wf = true

namespace IsEntry

variable {e : Json} {p : ProofV1}

/-- A section of the entry is that of the proof. -/
theorem get? (h : IsEntry e p) {k : String} {d : Json} (hk : p.dump.get? k = some d) :
    ∃ v, e.get? k = some v ∧ v.wf = true ∧ v.canon = d.canon := by
  have hg := get?_of_canon_eq h.wf h.dump_wf h.canon k
  rw [hk] at hg
  obtain ⟨v, hv, hc⟩ := Option.map_eq_some_iff.1 hg
  exact ⟨v, hv, Json.wf_of_get? h.wf hv, hc⟩

theorem entrySection_canon (h : IsEntry e p) {k : String} {d : Json} (hk : p.dump.get? k = some d) :
    (entrySection e k).canon = d.canon := by
  obtain ⟨v, hv, -, hc⟩ := h.get? hk
  rw [entrySection, hv]
  exact hc

theorem block (h : IsEntry e p) : (entryBlock e).wf = true ∧ (entryBlock e).canon = p.ledger.dump.canon := by
  obtain ⟨v, hv, hw, hc⟩ := h.get? (k := "ledger") (d := p.ledger.dump) rfl
  rw [entryBlock, hv]
  exact ⟨hw, hc⟩

theorem block_str (h : IsEntry e p) {k s : String} (hk : p.ledger.dump.get? k = some (.str s)) :
    (entryBlock e).get? k = some (.str s) :=
  get?_str_of_canon_eq h.block.1 p.ledger.dump_wf h.block.2 hk

theorem readable (h : IsEntry e p) : Readable e := by
  have he : e.canon.isObj = p.dump.canon.isObj := congrArg Json.isObj h.canon
  have hb : (entryBlock e).canon.isObj = p.ledger.dump.canon.isObj := congrArg Json.isObj h.block.2
  rw [isObj_canon, isObj_canon] at he hb
  exact ⟨he, hb⟩

/-- What is hashed of the entry is the proof's payload. -/
theorem content_canon (h : IsEntry e p) : (entryContent e).canon = p.payload.canon := by
  have hseq : (((entryBlock e).get? "sequence_id").getD (.int 0)).canon = .int p.ledger.sequenceId := by
    have hg := get?_of_canon_eq h.block.1 p.ledger.dump_wf h.block.2 "sequence_id"
    obtain ⟨v, hv, hc⟩ := Option.map_eq_some_iff.1 hg
    rw [hv]
    exact hc
  have hd := h.entrySection_canon (k := "decision") (d := p.decision.dump) rfl
  have hc := h.entrySection_canon (k := "decision_context") (d := p.decisionContext.dump) rfl
  have hg := h.entrySection_canon (k := "governance") (d := p.governance.dump) rfl
  have ht := h.entrySection_canon (k := "determinism") (d := p.determinism.dump) rfl
  have hp := h.block_str (k := "previous_hash") (s := p.ledger.previousHash.text) rfl
  rw [entryContent, hashedContent, ProofV1.payload, hashPayload, Json.canon_obj, Json.canon_obj, hp]
  simp only [List.map_cons, List.map_nil, hd, hc, hg, ht, hseq, Option.getD_some, Json.canon]

/-- **The hash of the stand-alone verifiers is the engine's.** -/
theorem contentHash_eq (h : IsEntry e p) : contentHash e = sha256Hex (dumps p.payload) := by
  rw [contentHash, dumps_eq_of_canon h.content_canon]

theorem storedHash_eq (h : IsEntry e p) : storedHash e = .str p.ledger.currentHash.text := by
  rw [storedHash, h.block_str (k := "current_hash") rfl]
  rfl

theorem storedLink_eq (h : IsEntry e p) : storedLink e = .str p.ledger.previousHash.text := by
  rw [storedLink, h.block_str (k := "previous_hash") rfl]
  rfl

end IsEntry

theorem document_isEntry {p : ProofV1} (h : p.dump.wf = true) : IsEntry p.document p :=
  ⟨p.document_wf h, Json.canon_canon _, h⟩

theorem IsEntry.decision_isObj {e : Json} {p : ProofV1} (h : IsEntry e p) :
    (entrySection e "decision").isObj = true := by
  have hd := congrArg Json.isObj (h.entrySection_canon (k := "decision") (d := p.decision.dump) rfl)
  rwa [isObj_canon, isObj_canon] at hd

/-- Every entry is some proof. -/
theorem entries_mem {es : List Json} {ps : List ProofV1} (h : List.Forall₂ IsEntry es ps) :
    ∀ e ∈ es, ∃ p ∈ ps, IsEntry e p := by
  induction h with
  | nil => simp
  | cons he _ ih =>
    intro f hf
    rcases List.mem_cons.1 hf with rfl | hf
    · exact ⟨_, List.mem_cons_self .., he⟩
    · obtain ⟨p, hp, hfp⟩ := ih f hf
      exact ⟨p, List.mem_cons_of_mem _ hp, hfp⟩

/-- The recomputed hashes of entries are those of their proofs. -/
theorem contentHash_entries {es : List Json} {ps : List ProofV1} (h : List.Forall₂ IsEntry es ps)
    (hh : ∀ p ∈ ps, p.ledger.currentHash.text = sha256Hex (dumps p.payload)) :
    es.map contentHash = ps.map fun p => p.ledger.currentHash.text := by
  induction h with
  | nil => rfl
  | cons he _ ih =>
    rw [List.map_cons, List.map_cons, he.contentHash_eq, ← hh _ (List.mem_cons_self ..),
      ih fun p hp => hh p (List.mem_cons_of_mem _ hp)]

/-- Entries that are linked proofs with their hashes form a chain. -/
theorem chainOk_of_linked {es : List Json} {ps : List ProofV1} (h : List.Forall₂ IsEntry es ps)
    (hh : ∀ p ∈ ps, p.ledger.currentHash.text = sha256Hex (dumps p.payload)) :
    ∀ {prev : String} {n : ℤ}, Linked proofReading prev n ps → ChainOk prev es := by
  induction h with
  | nil => intro _ _ _; trivial
  | cons he _ ih =>
    intro prev n hl
    obtain ⟨hprev, -, hrest⟩ := hl
    have hcur := hh _ (List.mem_cons_self ..)
    have hcontent := he.contentHash_eq.trans hcur.symm
    refine ⟨he.readable, ?_, ?_, ?_⟩
    · rw [he.storedHash_eq, hcontent]
    · rw [he.storedLink_eq]
      exact congrArg Json.str hprev
    · rw [hcontent]
      exact ih (fun p hp => hh p (List.mem_cons_of_mem _ hp)) hrest

/-! ### The package -/

/-- The proof block of a chain's package. -/
def chainBlock (i : String) (ps : List ProofV1) : Json :=
  .obj [("instance_id", .str i), ("instance_root", .str (sha256Hex (rootText ps))),
    ("ledger", .arr (ps.map ProofV1.document))]

theorem chainBlock_wf {i : String} {ps : List ProofV1} (h : ∀ p ∈ ps, p.dump.wf = true) :
    (chainBlock i ps).wf = true := by
  have hl : (Json.arr (ps.map ProofV1.document)).wf = true := by
    rw [Json.wf_arr, List.forall_mem_map]
    exact fun p hp => p.document_wf (h p hp)
  rw [chainBlock, Json.wf_obj]
  simp only [List.forall_mem_cons, hl]
  simp [Json.wf]

theorem chainPackage_wf {signer : Signer} {i : String} {ps : List ProofV1} (h : ∀ p ∈ ps, p.dump.wf = true) :
    (chainPackage signer i ps).wf = true := by
  have hb : (chainBlock i ps).wf = true := chainBlock_wf h
  rw [chainBlock] at hb
  rw [chainPackage, exportPackage, Json.wf_obj]
  simp only [List.forall_mem_cons, hb]
  simp [Json.wf]

/-- The entries of a value that is equal to the package. -/
theorem entries_of_canon_eq {l : Json} {ps : List ProofV1} (h : ∀ p ∈ ps, p.dump.wf = true) (hl : l.wf = true)
    (hc : l.canon = (Json.arr (ps.map ProofV1.document)).canon) :
    ∃ es, l = .arr es ∧ List.Forall₂ IsEntry es ps := by
  cases l with
  | arr es =>
    refine ⟨es, rfl, ?_⟩
    rw [Json.canon_arr, Json.canon_arr, List.map_map, Json.arr.injEq] at hc
    rw [Json.wf_arr] at hl
    induction es generalizing ps with
    | nil => cases ps with
      | nil => exact .nil
      | cons p ps => cases hc
    | cons e es ih => cases ps with
      | nil => cases hc
      | cons p ps =>
        obtain ⟨he, hes⟩ := List.cons.inj hc
        refine .cons ⟨hl e (by simp), ?_, h p (by simp)⟩ (ih (fun q hq => h q (List.mem_cons_of_mem _ hq))
          (fun f hf => hl f (List.mem_cons_of_mem _ hf)) hes)
        rw [he, Function.comp_apply, ProofV1.document, Json.canon_canon]
  | obj kvs => rw [Json.canon_obj] at hc; cases hc
  | _ => cases hc

section

variable {signer : Signer} {ed : Ed25519} {i : String} {ps : List ProofV1} {j : Json}

/-- The proof block of a value that is equal to the package. -/
theorem proofBlock_of_canon_eq (h : ∀ p ∈ ps, p.dump.wf = true) (hj : j.wf = true)
    (hc : j.canon = (chainPackage signer i ps).canon) :
    (proofBlock j).wf = true ∧ (proofBlock j).canon = (chainBlock i ps).canon := by
  have hg := get?_of_canon_eq hj (chainPackage_wf h) hc "proof"
  obtain ⟨pb, hpb, hpc⟩ := Option.map_eq_some_iff.1 hg
  rw [proofBlock, hpb]
  exact ⟨Json.wf_of_get? hj hpb, hpc⟩

/-- **The package of a chain satisfies the checks.** -/
theorem chainPackage_accepted
    (hs : ed signer.publicKey (sha256 (utf8 (rootText ps))) (signer.sign (sha256 (utf8 (rootText ps)))) = true)
    (hne : ps ≠ []) (h : ∀ p ∈ ps, p.dump.wf = true)
    (hh : ∀ p ∈ ps, p.ledger.currentHash.text = sha256Hex (dumps p.payload))
    (hl : Linked proofReading genesisHash 1 ps) (hj : j.wf = true)
    (hc : j.canon = (chainPackage signer i ps).canon) :
    ∃ es, List.Forall₂ IsEntry es ps ∧ Accepted ed j es := by
  have hpw : (chainPackage signer i ps).wf = true := chainPackage_wf h
  obtain ⟨hbw, hbc⟩ := proofBlock_of_canon_eq h hj hc
  have hg := get?_of_canon_eq hbw (chainBlock_wf h) hbc "ledger"
  obtain ⟨l, hled, hlc⟩ := Option.map_eq_some_iff.1 hg
  obtain ⟨es, rfl, hes⟩ := entries_of_canon_eq h (Json.wf_of_get? hbw hled) hlc
  have hchain := chainOk_of_linked hes hh hl
  have hesne : es ≠ [] := by
    rintro rfl
    exact hne (List.length_eq_zero_iff.1 hes.length_eq.symm)
  -- the texts of the package
  have htext : ∀ {k s}, (chainPackage signer i ps).get? k = some (.str s) → textField j k = .str s := by
    intro k s hk
    rw [textField, get?_str_of_canon_eq hj hpw hc hk]
    rfl
  have hpk : textField j "public_key" = .str (toHex signer.publicKey) := htext rfl
  have hsg : textField j "signature" = .str (toHex (signer.sign (sha256 (utf8 (rootText ps))))) := htext rfl
  have hph : textField j "package_hash" = .str (packageHash (ps.map ProofV1.document)) := htext rfl
  have hroot : textField (proofBlock j) "instance_root" = .str (sha256Hex (rootText ps)) := by
    rw [textField, get?_str_of_canon_eq hbw (chainBlock_wf h) hbc rfl]
    rfl
  -- the root and the hash of the ledger
  have hchainRoot : chainRoot es = sha256Hex (rootText ps) := by
    rw [chainRoot, contentHash_entries hes hh, rootText]
  have hpackageHash : packageHash es = packageHash (ps.map ProofV1.document) := by
    rw [packageHash, packageHash, dumps_eq_of_canon hlc]
  have hlast : (lastDecision es).isObj = true := by
    rw [lastDecision, List.getLast?_eq_some_getLast hesne]
    obtain ⟨p, -, hp⟩ := entries_mem hes _ (List.getLast_mem hesne)
    exact hp.decision_isObj
  have htype : j.get? "type" = some (.str packageType) := get?_str_of_canon_eq hj hpw hc rfl
  exact ⟨es, hes, {
    isObj := Json.isObj_of_get? htype
    type := htype
    proof := Json.isObj_of_get? hled
    ledger := hled
    ne := hesne
    packageHash := fun _ => by rw [hph, hpackageHash]
    chain := hchain
    finalState := hlast
    publicKey := by rw [hpk]; exact truthy_of_length (by rw [toHex_length, signer.publicKey_length]; decide)
    signature := by rw [hsg]; exact truthy_of_length (by rw [toHex_length, signer.sign_length]; decide)
    root := fun _ => by rw [hroot, hchainRoot]
    verifies := by rw [hpk, hsg, hchainRoot, verifyHexEd25519_toHex]; exact hs }⟩

end

/-! ### From the engine to the verifiers -/

/-- **The round trip of an export.**  Take any run over a fresh database with one
honest signer and any instance a decision was recorded on.  The package that
`export_proof` returns, written to any text that reads back to a value equal to
it as JSON, passes the four checks of `verify_package` with none skipped, is
valid for `offline_verify`, and names the length of the chain and the fingerprint
of its root. -/
theorem exportProof_accepted {signer : Signer} {ed : Ed25519} (hs : signer.Honest ed) (ops : List Op) (env : CallEnv)
    (i : String) {package : Json} (hne : onInstance i (recorded (Engine.fresh.run signer ops).2) ≠ [])
    (he : ((Engine.fresh.run signer ops).1.step signer (.exportProof env i)).1 = .package package) :
    loads (dumps package) = some package.canon ∧
    ∀ text j, loads text = some j → j.canon = package.canon →
      (∃ cs m, verifyPackage ed j = .ok (true, cs, m) ∧ cs.length = 4 ∧
        ∀ c ∈ cs, c.passed = true ∧ c.skipped = false) ∧
      (∃ state, offlineVerifyFile ed text = .ok (true, "Proof valid", state)) ∧
      ∃ (n : ℕ) (root : String), n = (onInstance i (recorded (Engine.fresh.run signer ops).2)).length ∧
        j.get? "chain_length" = some (.int n) ∧
        (proofBlock j).get? "instance_root" = some (.str root) ∧
        j.get? "proof_fingerprint" = some (.str (sha256Hex (root ++ ":" ++ toString n))) := by
  have hinv := inv_run signer ops
  obtain ⟨ps, hps⟩ : ∃ ps, ps = (onInstance i (recorded (Engine.fresh.run signer ops).2)).map Prod.snd := ⟨_, rfl⟩
  have hpkg : package = chainPackage signer i ps := by
    rw [hps]
    exact hinv.package_eq he
  have hwf : ∀ p ∈ ps, p.dump.wf = true := by rw [hps]; exact hinv.dump_wf i
  have hpw : (chainPackage signer i ps).wf = true := chainPackage_wf hwf
  have hpne : ps ≠ [] := by rwa [hps, ne_eq, List.map_eq_nil_iff]
  have hlen : ps.length = (onInstance i (recorded (Engine.fresh.run signer ops).2)).length := by
    rw [hps, List.length_map]
  have hh : ∀ p ∈ ps, p.ledger.currentHash.text = sha256Hex (dumps p.payload) := by
    intro p hp
    rw [hps] at hp
    obtain ⟨ap, hap, rfl⟩ := List.mem_map.1 hp
    exact (hinv.built ap (List.mem_filter.1 hap).1).hash_eq
  have hlinked : Linked proofReading genesisHash 1 ps := by rw [hps]; exact hinv.linked i
  subst hpkg
  refine ⟨loads_dumps hpw, fun text j hl hc => ?_⟩
  have hj := loads_wf hl
  obtain ⟨es, hes, hacc⟩ := chainPackage_accepted (hs _) hpne hwf hh hlinked hj hc
  have htruthy : (textField j "package_hash").truthy = true := by
    rw [textField, get?_str_of_canon_eq hj hpw hc (k := "package_hash") rfl]
    exact truthy_sha256Hex _
  refine ⟨?_, ?_, ps.length, sha256Hex (rootText ps), hlen, ?_, ?_, ?_⟩
  · obtain ⟨cs, m, hv, hcs, hall⟩ := hacc.verifyPackage
    refine ⟨cs, m, hv, hcs, fun c hcm => ⟨(hall c hcm).1, ?_⟩⟩
    rw [← Bool.not_eq_true]
    exact fun hskip => absurd ((hall c hcm).2 hskip) (by simp [htruthy])
  · rw [offlineVerifyFile, hl]
    refine hacc.offlineVerify fun e he => ?_
    obtain ⟨p, -, hp⟩ := entries_mem hes e he
    rw [hp.block_str (k := "previous_hash") rfl]
    rfl
  · refine get?_int_of_canon_eq hj hpw hc ?_
    rw [← List.length_map ProofV1.document]
    rfl
  · obtain ⟨hbw, hbc⟩ := proofBlock_of_canon_eq hwf hj hc
    exact get?_str_of_canon_eq hbw (chainBlock_wf hwf) hbc rfl
  · refine get?_str_of_canon_eq hj hpw hc ?_
    rw [← List.length_map ProofV1.document]
    rfl

/-- The loan of the samples, exported and read back. -/
theorem exportProof_accepted_loan :
    ∃ package, ((Engine.fresh.run loanSigner (loanRun none)).1.step loanSigner
        (.exportProof loanEnv "loan_1")).1 = .package package ∧
      (∃ cs m, verifyPackage loanVerifier package.canon = .ok (true, cs, m) ∧ cs.length = 4 ∧
        ∀ c ∈ cs, c.passed = true ∧ c.skipped = false) ∧
      (∃ state, offlineVerifyFile loanVerifier (dumps package) = .ok (true, "Proof valid", state)) ∧
      package.canon.get? "chain_length" = some (.int 1) := by
  obtain ⟨p, frozen, -, hrec, hstep, -, -⟩ := loanRun_exports
  have hon : onInstance "loan_1" (recorded (Engine.fresh.run loanSigner (loanRun none)).2) =
      [(loanCall "pending" "approved" none, p)] := by
    rw [hrec]
    simp [onInstance, loanCall]
  have he : ((Engine.fresh.run loanSigner (loanRun none)).1.step loanSigner (.exportProof loanEnv "loan_1")).1 =
      .package (chainPackage loanSigner "loan_1" [p]) := by rw [hstep]
  obtain ⟨hload, hall⟩ := exportProof_accepted loanSigner_honest (loanRun none) loanEnv "loan_1"
    (by rw [hon]; simp) he
  obtain ⟨hv, hoff, n, root, hn, hlen, -, -⟩ := hall _ _ hload (Json.canon_canon _)
  rw [hon] at hn
  exact ⟨_, he, hv, hoff, by rw [hlen, hn]; rfl⟩

end ProvableAi
