/-
# Exporting a chain

`GovernanceEngine.export_proof` in `engine.py`: the stored proofs of an
instance, the instance root (SHA-256 of the joined `current_hash`es) signed
with the engine's key, and the package around them.  The instance is frozen on
the way.

`exportProof_eq` computes the package where the chain holds recorded proofs.
-/

import ProvableAi.Engine.Record
import ProvableAi.Json.Access

namespace ProvableAi

/-- `if pj and pj != "{}"` for the `proof_json` of a row. -/
def LedgerRow.hasProof (r : LedgerRow) : Bool := r.proofJson ≠ "" && r.proofJson ≠ dumps (.obj [])

/-- `json.loads(pj)`. -/
def LedgerRow.loadProof (r : LedgerRow) : Except PyErr Json :=
  match loads r.proofJson with
  | some j => .ok j
  | none => .error .jsonDecodeError

/-- The loop that collects `proof_dicts`. -/
def proofDicts (chain : List LedgerRow) : Except PyErr (List Json) :=
  (chain.filter LedgerRow.hasProof).mapM LedgerRow.loadProof

/-- `e.get("ledger", {}).get("current_hash", "")`. -/
def entryHash (e : Json) : Except PyErr Json := do
  let ledger ← e.getD "ledger" (.obj [])
  ledger.getD "current_hash" (.str "")

/-- SHA-256 of the joined `current_hash`es of the entries. -/
def instanceRoot (entries : List Json) : Except PyErr String := do
  let hashes ← entries.mapM entryHash
  let text ← joinStrs hashes
  pure (sha256Hex text)

/-- `_compute_instance_root`. -/
def Db.computeInstanceRoot (db : Db) (instanceId : String) : Except PyErr String := do
  let proofs ← proofDicts (db.getLedgerChain instanceId defaultTenant)
  instanceRoot proofs

/-- SHA-256 of the ledger as JSON. -/
def packageHash (entries : List Json) : String := sha256Hex (dumps (.arr entries))

/-- SHA-256 of the root and the number of proofs. -/
def proofFingerprint (instanceRoot : String) (chainLength : ℕ) : String :=
  sha256Hex (instanceRoot ++ ":" ++ toString chainLength)

/-- The type of a package. -/
def packageType : String := "provable-ai-proof-package"

/-- The dict that `export_proof` returns. -/
def exportPackage (publicKey signature instanceId instanceRoot : String) (ledger : List Json) : Json :=
  .obj [("valid", .bool true), ("type", .str packageType), ("public_key", .str publicKey),
    ("signature", .str signature), ("package_hash", .str (packageHash ledger)),
    ("proof_fingerprint", .str (proofFingerprint instanceRoot ledger.length)),
    ("chain_length", .int ledger.length),
    ("proof", .obj [("instance_id", .str instanceId), ("instance_root", .str instanceRoot),
      ("ledger", .arr ledger)])]

/-- `export_proof` up to the signature, before the instance is frozen. -/
def signedExport (db : Db) (signer : Signer) (env : CallEnv) (instanceId : String) : Except PyErr Json := do
  let ledger ← proofDicts (db.getLedgerChain instanceId defaultTenant)
  let root ← db.computeInstanceRoot instanceId
  let sigHex ← signHash signer env ((fromHex root).getD [])
  pure (exportPackage (toHex signer.publicKey) sigHex instanceId root ledger)

/-- `export_proof`.  The assertion at its end holds: a digest is not empty. -/
def exportProof (db : Db) (signer : Signer) (env : CallEnv) (instanceId : String) : Except PyErr Json × Db :=
  match signedExport db signer env instanceId with
  | .error e => (.error e, db)
  | .ok package => (.ok package, db.freezeInstance instanceId defaultTenant)

/-! ### The ledger of recorded proofs -/

/-- The row of a recorded proof. -/
def ProofV1.row (p : ProofV1) : LedgerRow := p.toDict.row

/-- What is read back of a recorded proof. -/
def ProofV1.document (p : ProofV1) : Json := p.dump.canon

theorem ProofV1.loads_row {p : ProofV1} (h : p.dump.wf = true) : loads p.row.proofJson = some p.document :=
  loads_dumps h

theorem ProofV1.loadProof_row {p : ProofV1} (h : p.dump.wf = true) : p.row.loadProof = .ok p.document := by
  rw [LedgerRow.loadProof, p.loads_row h]

/-- A stored proof is neither empty nor the empty object. -/
theorem ProofV1.hasProof_row {p : ProofV1} (h : p.dump.wf = true) : p.row.hasProof = true := by
  have hl := p.loads_row h
  have h₁ : p.row.proofJson ≠ "" := fun he => by
    rw [he, show loads "" = none by decide] at hl
    cases hl
  have h₂ : p.row.proofJson ≠ dumps (.obj []) := fun he => by
    have hc : p.dump.canon = (Json.obj []).canon := (dumps_inj h rfl).1 he
    have ht := Json.get?_canon h "type"
    rw [hc] at ht
    cases ht
  simp [LedgerRow.hasProof, h₁, h₂]

theorem ProofV1.document_wf {p : ProofV1} (h : p.dump.wf = true) : p.document.wf = true := Json.canon_wf _ h

theorem ProofV1.parse_document (py : Pydantic) {p : ProofV1} (h : p.dump.wf = true) :
    ProofV1.parse py p.document = some p.canon := by
  rw [document, parse_canon py _ h, parse_dump]
  rfl

/-- The stored chain loads to the documents of its proofs. -/
theorem proofDicts_rows {ps : List ProofV1} (h : ∀ p ∈ ps, p.dump.wf = true) :
    proofDicts (ps.map ProofV1.row) = .ok (ps.map ProofV1.document) := by
  have hf : (ps.map ProofV1.row).filter LedgerRow.hasProof = ps.map ProofV1.row := by
    refine List.filter_eq_self.2 fun r hr => ?_
    obtain ⟨p, hp, rfl⟩ := List.mem_map.1 hr
    exact p.hasProof_row (h p hp)
  rw [proofDicts, hf]
  refine mapM_eq_ok.2 (List.forall₂_map_left_iff.2 (List.forall₂_map_right_iff.2 ?_))
  exact List.forall₂_same.2 fun p hp => p.loadProof_row (h p hp)

/-- The hash in an entry that is a proof up to the order of members. -/
theorem entryHash_of_canon {e : Json} (he : e.wf = true) {p : ProofV1} (h : e.canon = p.document)
    (hp : p.dump.wf = true) : entryHash e = .ok (.str p.ledger.currentHash.text) := by
  have hl : (e.get? "ledger").map Json.canon = some p.ledger.dump.canon := by
    rw [← Json.get?_canon he, h, ProofV1.document, Json.get?_canon hp]
    rfl
  obtain ⟨l, hel, hlc⟩ := Option.map_eq_some_iff.1 hl
  have hlw := Json.wf_of_get? he hel
  have hc : (l.get? "current_hash").map Json.canon = some (.str p.ledger.currentHash.text) := by
    rw [← Json.get?_canon hlw, hlc, Json.get?_canon p.ledger.dump_wf]
    rfl
  obtain ⟨c, hlcur, hcc⟩ := Option.map_eq_some_iff.1 hc
  rw [Json.canon_eq_str.1 hcc] at hlcur
  have hobj : ∀ {j w : Json} {k : String}, j.get? k = some w → ∀ d, j.getD k d = .ok w := by
    intro j w k hj d
    exact Json.getD_eq_ok.2 ⟨Json.isObj_of_get? hj, by rw [hj]; rfl⟩
  rw [entryHash, hobj hel]
  exact hobj hlcur _

/-- The text that is hashed to the instance root of a chain. -/
def rootText (ps : List ProofV1) : String := String.join (ps.map fun p => p.ledger.currentHash.text)

/-- The root of entries that are proofs up to the order of members. -/
theorem instanceRoot_eq {es : List Json} {ps : List ProofV1}
    (h : List.Forall₂ (fun e p => e.wf = true ∧ e.canon = p.document ∧ p.dump.wf = true) es ps) :
    instanceRoot es = .ok (sha256Hex (rootText ps)) := by
  have hm : es.mapM entryHash = .ok (ps.map fun p => .str p.ledger.currentHash.text) := by
    refine mapM_eq_ok.2 (List.forall₂_map_right_iff.2 (h.imp fun e p hep => ?_))
    exact entryHash_of_canon hep.1 hep.2.1 hep.2.2
  have hj : joinStrs (ps.map fun p => .str p.ledger.currentHash.text) = .ok (rootText ps) :=
    joinStrs_eq_ok.2 ⟨ps.map fun p => p.ledger.currentHash.text, by simp, rfl⟩
  rw [instanceRoot, hm]
  show (joinStrs _ >>= fun text => pure (sha256Hex text)) = _
  rw [hj]
  rfl

theorem instanceRoot_documents {ps : List ProofV1} (h : ∀ p ∈ ps, p.dump.wf = true) :
    instanceRoot (ps.map ProofV1.document) = .ok (sha256Hex (rootText ps)) := by
  refine instanceRoot_eq (List.forall₂_map_left_iff.2 (List.forall₂_same.2 fun p hp => ?_))
  exact ⟨p.document_wf (h p hp), Json.canon_canon _, h p hp⟩

/-- The package of a chain of recorded proofs. -/
def chainPackage (signer : Signer) (instanceId : String) (ps : List ProofV1) : Json :=
  exportPackage (toHex signer.publicKey) (toHex (signer.sign (sha256 (utf8 (rootText ps))))) instanceId
    (sha256Hex (rootText ps)) (ps.map ProofV1.document)

/-- **What `export_proof` returns** on a chain of recorded proofs, unless the
signer raises. -/
theorem exportProof_eq {db : Db} {i : String} {ps : List ProofV1}
    (hrows : db.getLedgerChain i defaultTenant = ps.map ProofV1.row) (h : ∀ p ∈ ps, p.dump.wf = true)
    (signer : Signer) (env : CallEnv) :
    exportProof db signer env i =
      match env.signFault with
      | some e => (.error e, db)
      | none => (.ok (chainPackage signer i ps), db.freezeInstance i defaultTenant) := by
  have hd := proofDicts_rows h
  have hroot : db.computeInstanceRoot i = .ok (sha256Hex (rootText ps)) := by
    rw [Db.computeInstanceRoot, hrows, hd]
    exact instanceRoot_documents h
  have hs : signedExport db signer env i = (signHash signer env (sha256 (utf8 (rootText ps)))).map fun s =>
      exportPackage (toHex signer.publicKey) s i (sha256Hex (rootText ps)) (ps.map ProofV1.document) := by
    rw [signedExport, hrows, hd, hroot]
    simp only [bind, Except.bind, fromHex_sha256Hex, Option.getD_some]
    cases signHash signer env (sha256 (utf8 (rootText ps))) <;> rfl
  rw [exportProof, hs, signHash]
  cases env.signFault <;> rfl

end ProvableAi
