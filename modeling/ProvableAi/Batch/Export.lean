/-
# Batch exports

`audit_batch.py`: the stored proofs of a tenant in a range of dates, a Merkle
root over their ids, the root signed, and the dict around it; the checks of
such a dict (`verify_batch_signature`), the inclusion proof of one id
(`compute_inclusion_proof`, `verify_inclusion_proof`).  With them the two other
readers of the dict: `verify/verify_batch.py`, a program of its own, and the
endpoint `POST /audit/inclusion-proof` of `server/main.py`.

All four take the ids of a batch from its proofs.  `audit_batch.py` falls back
to an id derived from the ledger block where a proof has no `proof_id`
(`proofIdOf`); the other two skip such a proof (`embeddedIds`).

The tree is that of `Lib.Merkle` at hexadecimal digests.  The list of levels
that `build_merkle_tree` returns beside the root is read by no caller and left
out.
-/

import ProvableAi.Engine.Runs
import ProvableAi.Lib.Merkle
import ProvableAi.Package.Verify
import ProvableAi.Storage.Postgres

namespace ProvableAi
namespace Batch

open Merkle

/-! ### The Merkle tree -/

/-- `hashlib.sha256(bytes.fromhex(left) + bytes.fromhex(right)).hexdigest()`. -/
def parent? (left right : String) : Option String := do
  let l ← fromHex left
  let r ← fromHex right
  some (toHex (sha256 (l ++ r)))

/-- The same of two digests, where `bytes.fromhex` does not raise. -/
def parent (left right : String) : String := (parent? left right).getD ""

/-- `sorted(proof_ids)`. -/
def sortedIds (proofIds : List String) : List String := proofIds.insertionSort fun a b => a ≤ b

/-- The leaves: the digests of the sorted ids, a single one twice. -/
def leaves (proofIds : List String) : List String :=
  let digests := (sortedIds proofIds).map sha256Hex
  if digests.length = 1 then digests ++ digests else digests

/-- The root of the empty list. -/
def emptyRoot : String := String.ofList (List.replicate 64 '0')

/-- The last `current` of the loop over the levels. -/
def topOf (level : List String) : String := (climb parent level.length level).head?.getD ""

/-- `merkle_root`, and `build_merkle_root` of the stand-alone program. -/
def merkleRoot (proofIds : List String) : String :=
  if proofIds.isEmpty then emptyRoot else topOf (leaves proofIds)

/-- What `merkle_root` makes of an id: only a text has `.encode`.  A list with something
else raises there or already in `sorted`. -/
def idText : Json → Except PyErr String
  | .str s => .ok s
  | _ => .error .attributeError

/-! ### Inclusion proofs -/

/-- `MerkleInclusionProof`.  The last four are what the batch dict has there. -/
structure MerkleInclusionProof where
  leafHash : String
  leafIndex : ℕ
  path : List (Merkle.Step String)
  root : String
  signedRoot : Json
  signature : Json
  publicKey : Json
  keyId : Json
  deriving DecidableEq

/-- `compute_inclusion_proof`. -/
def computeInclusionProof (proofIds : List String) (targetId : String) (batch : Option Json) :
    Except PyErr MerkleInclusionProof :=
  if proofIds.isEmpty then .error (.valueError "proof_ids is empty - cannot compute inclusion proof")
  else if targetId ∉ sortedIds proofIds then
    .error (.valueError ("target_id '" ++ slice 16 targetId ++ "...' not found in proof_ids"))
  else
    let level := leaves proofIds
    let targetLeaf := sha256Hex targetId
    let index := level.idxOf targetLeaf
    let path := Merkle.path parent level.length level index
    let root := topOf level
    match batch.filter Json.truthy with
    | none => .ok ⟨targetLeaf, index, path, root, .str root, .str "", .str "", .str ""⟩
    | some batch => do
      let block ← batch.getD "merkle_signature" (.obj [])
      let signedRoot ← batch.getD "merkle_root" (.str root)
      let signature ← block.getD "value" (.str "")
      let publicKey ← block.getD "public_key" (.str "")
      let keyId ← block.getD "key_id" (.str "")
      pure ⟨targetLeaf, index, path, root, signedRoot, signature, publicKey, keyId⟩

/-- One step of the walk up; nothing where `bytes.fromhex` raises. -/
def walk (current : String) (step : Merkle.Step String) : Option String :=
  match step.position with
  | .left => parent? step.hash current
  | .right => parent? current step.hash

/-- `verify_inclusion_proof`: an exception is a `False`. -/
def verifyInclusionProof (ed : Ed25519) (proof : MerkleInclusionProof) : Bool :=
  match proof.path.foldlM walk proof.leafHash with
  | none => false
  | some current =>
    if current ≠ proof.root then false
    else if proof.signedRoot.truthy ∧ proof.signedRoot ≠ .str current then false
    else if proof.signature.truthy ∧ proof.publicKey.truthy then
      verifyHexEd25519 ed proof.publicKey proof.root proof.signature
    else true

/-! ### Building a batch -/

/-- `timestamp >= from_date AND timestamp <= to_date`; `None` and the empty text are no
bound. -/
def inRange (fromDate toDate : Option String) (r : LedgerRow) : Prop :=
  (∀ d ∈ fromDate, d ≠ "" → d ≤ r.timestamp) ∧ ∀ d ∈ toDate, d ≠ "" → r.timestamp ≤ d

instance (fromDate toDate : Option String) (r : LedgerRow) : Decidable (inRange fromDate toDate r) :=
  inferInstanceAs (Decidable (_ ∧ _))

/-- The `SELECT` of `_fetch_proofs`: `ORDER BY instance_id, sequence_id`. -/
def selectedRows (ledger : List LedgerRow) (tenantId : String) (fromDate toDate : Option String) : List LedgerRow :=
  (ledger.filter fun r => r.tenantId = tenantId ∧ inRange fromDate toDate r).insertionSort fun a b =>
    a.instanceId < b.instanceId ∨ a.instanceId = b.instanceId ∧ a.sequenceId ≤ b.sequenceId

/-- `_fetch_proofs`: a row that does not load is skipped. -/
def fetchProofs (ledger : List LedgerRow) (tenantId : String) (fromDate toDate : Option String) : List Json :=
  (selectedRows ledger tenantId fromDate toDate).filterMap fun r => loads r.proofJson

/-- `_derive_proof_id`; the second case is that of a `KeyError` or `TypeError`. -/
def deriveProofId (proof : Json) : String :=
  let ledger := proof.get? "ledger"
  match ledger.bind fun l => l.get? "current_hash", ledger.bind fun l => l.get? "sequence_id" with
  | some currentHash, some sequenceId => sha256Hex (currentHash.pyStr ++ ":" ++ sequenceId.pyStr)
  | _, _ => sha256Hex (Postgres.jsonDumps proof.canon)

/-- `p.get("proof_id") or _derive_proof_id(p)`. -/
def proofIdOf (proof : Json) : Except PyErr Json := do
  let id ← proof.getD "proof_id" .null
  pure (if id.truthy then id else .str (deriveProofId proof))

/-- The ids of a list of proofs, as texts. -/
def proofIds (proofs : List Json) : Except PyErr (List String) := do
  let ids ← proofs.mapM proofIdOf
  ids.mapM idText

/-- The dict of a batch. -/
def batchDict (tenantId : String) (fromDate toDate : Option String) (exportedAt root signature publicKey keyId : String)
    (proofs : List Json) : Json :=
  .obj [("type", .str "zorynex-batch-v1"), ("tenant_id", .str tenantId), ("from_date", .ofOptStr fromDate),
    ("to_date", .ofOptStr toDate), ("exported_at", .str exportedAt), ("proof_count", .int proofs.length),
    ("merkle_root", .str root),
    ("merkle_signature", .obj [("value", .str signature), ("public_key", .str publicKey), ("key_id", .str keyId),
      ("algorithm", .str "Ed25519"), ("signed_at", .str exportedAt)]),
    ("verification_info", .obj [("algorithm", .str "Ed25519"), ("public_key", .str publicKey), ("key_id", .str keyId),
      ("instructions", .str ("Verify: recompute Merkle root from proof_ids, " ++
        "verify Ed25519 signature over root bytes using public_key."))]),
    ("proofs", .arr proofs)]

/-- `BatchExport`. -/
structure BatchExport where
  batchDict : Json
  merkleRoot : String
  proofCount : ℕ
  exportedAt : String

/-- `build_batch_export`. -/
def buildBatchExport (db : Db) (signer : Signer) (env : CallEnv) (tenantId : String)
    (fromDate toDate : Option String) : Except PyErr BatchExport := do
  let proofs := fetchProofs db.ledger tenantId fromDate toDate
  let ids ← proofIds proofs
  let root := merkleRoot ids
  let sigHex ← signHash signer env ((fromHex root).getD [])
  pure ⟨batchDict tenantId fromDate toDate env.now.text root sigHex (toHex signer.publicKey) signer.keyId proofs,
    root, proofs.length, env.now.text⟩

/-! ### The verifiers -/

/-- `bytes.fromhex(v)`. -/
def hexBytes : Json → Except PyErr Bytes
  | .str s =>
    match fromHex s with
    | some bs => .ok bs
    | none => .error (.valueError "non-hexadecimal number found in fromhex() arg")
  | _ => .error .typeError

/-- What PyNaCl raises of a key or a signature of the wrong length; what else does not
verify is a `BadSignatureError`. -/
def lengthFault (pub sig : Bytes) : Option PyErr :=
  if pub.length ≠ 32 then some (.valueError "The key must be exactly 32 bytes long")
  else if sig.length ≠ 64 then some (.valueError "The signature must be exactly 64 bytes long")
  else none

/-- The dict that `verify_batch_signature` returns. -/
structure SignatureResult where
  valid : Bool
  merkleRootValid : Bool
  signatureValid : Bool
  proofCount : ℕ
  failureReason : Option String
  deriving DecidableEq

/-- The body of the `try` in `verify_batch_signature`, with the handler of
`BadSignatureError`. -/
def batchChecks (ed : Ed25519) (batch : Json) : Except PyErr SignatureResult := do
  let proofs ← batch.getD "proofs" (.arr [])
  let claimedRoot ← batch.getD "merkle_root" (.str "")
  let sigBlock ← batch.getD "merkle_signature" (.obj [])
  let sigHex ← sigBlock.getD "value" (.str "")
  let pubHex ← sigBlock.getD "public_key" (.str "")
  let items ← proofs.iter
  let ids ← proofIds items
  let computedRoot := merkleRoot ids
  if claimedRoot ≠ .str computedRoot then do
    let text ← claimedRoot.pySlice 16
    pure ⟨false, false, false, items.length, some ("Merkle root mismatch: computed " ++ slice 16 computedRoot ++
      "... claimed " ++ text ++ "...")⟩
  else do
    let sig ← hexBytes sigHex
    let pub ← hexBytes pubHex
    if ed pub ((fromHex computedRoot).getD []) sig then pure ⟨true, true, true, items.length, none⟩
    else
      match lengthFault pub sig with
      | some e => .error e
      | none => pure ⟨false, true, false, items.length, some "Ed25519 signature verification failed."⟩

/-- `verify_batch_signature`. -/
def verifyBatchSignature (ed : Ed25519) (batch : Json) : SignatureResult :=
  match batchChecks ed batch with
  | .ok r => r
  | .error e => ⟨false, false, false, 0, some ("Batch verification error: " ++ e.className ++ ": " ++ e.str)⟩

/-- `[p.get("proof_id") for p in proofs if p.get("proof_id")]`. -/
def embeddedIds (proofs : List Json) : Except PyErr (List Json) := do
  let ids ← proofs.mapM fun p => p.getD "proof_id" .null
  pure (ids.filter Json.truthy)

/-- The dict that `verify_batch` returns. -/
structure BatchResult where
  valid : Bool
  merkleRootValid : Bool
  signatureValid : Bool
  proofCount : ℕ
  tenantId : Json
  exportedAt : Json
  failure : Option String
  deriving DecidableEq

/-- The last `try` of `verify_batch`: nothing, or the text of the exception. -/
def signatureFailure (ed : Ed25519) (publicKey sigValue : Json) (root : String) : Option String :=
  match hexBytes publicKey, hexBytes sigValue with
  | .error e, _ => some e.str
  | .ok pub, .error e => some (if pub.length ≠ 32 then "The key must be exactly 32 bytes long" else e.str)
  | .ok pub, .ok sig =>
    if ed pub ((fromHex root).getD []) sig then none
    else
      match lengthFault pub sig with
      | some e => some e.str
      | none => some "Signature was forged or corrupt"

/-- `verify_batch` of the stand-alone program. -/
def verifyBatch (ed : Ed25519) (batch : Json) : Except PyErr BatchResult := do
  let tenantId ← batch.getD "tenant_id" .null
  let exportedAt ← batch.getD "exported_at" .null
  let proofs ← batch.getD "proofs" (.arr [])
  let items ← proofs.iter
  let embedded ← embeddedIds items
  let storedRoot ← batch.getD "merkle_root" (.str "")
  let ids ← embedded.mapM idText
  let computedRoot := merkleRoot ids
  if storedRoot ≠ .str computedRoot then do
    let text ← storedRoot.pySlice 16
    pure ⟨false, false, false, embedded.length, tenantId, exportedAt, some ("Merkle root mismatch: stored=" ++ text ++
      "... computed=" ++ slice 16 computedRoot ++ "...")⟩
  else do
    let sigBlock ← batch.getD "merkle_signature" (.obj [])
    let sigValue ← sigBlock.getD "value" (.str "")
    let publicKey ← sigBlock.getD "public_key" (.str "")
    if !sigValue.truthy || !publicKey.truthy then
      pure ⟨false, true, false, embedded.length, tenantId, exportedAt,
        some "merkle_signature missing value or public_key"⟩
    else
      match signatureFailure ed publicKey sigValue computedRoot with
      | some e => pure ⟨false, true, false, embedded.length, tenantId, exportedAt, some ("Ed25519 signature invalid: " ++ e)⟩
      | none => pure ⟨true, true, true, embedded.length, tenantId, exportedAt, none⟩

/-! ### The endpoint -/

/-- What `POST /audit/inclusion-proof` answers once it has read its body. -/
inductive InclusionResponse where
  /-- 400. -/
  | proofIdRequired
  /-- 404, `PROOF_NOT_IN_BATCH`. -/
  | notInBatch (proofId : String) (batchSize : ℕ)
  | content (proofId merkleRoot : String) (proof : MerkleInclusionProof) (selfVerified : Bool)

/-- The flow of the endpoint on a batch: the ids of its proofs, the inclusion proof of
the target, its verification. -/
def inclusionFlow (ed : Ed25519) (batch : BatchExport) (targetProofId : String) : Except PyErr InclusionResponse := do
  let proofs ← batch.batchDict.getD "proofs" (.arr [])
  let items ← proofs.iter
  let embedded ← embeddedIds items
  if .str targetProofId ∉ embedded then pure (.notInBatch targetProofId embedded.length)
  else do
    let ids ← embedded.mapM idText
    let proof ← computeInclusionProof ids targetProofId (some batch.batchDict)
    pure (.content targetProofId batch.merkleRoot proof (verifyInclusionProof ed proof))

/-- `audit_inclusion_proof_endpoint`. -/
def auditInclusionProof (ed : Ed25519) (db : Db) (signer : Signer) (env : CallEnv) (tenantId targetProofId : String)
    (fromDate toDate : Option String) : Except PyErr InclusionResponse :=
  if targetProofId = "" then .ok .proofIdRequired
  else do
    let batch ← buildBatchExport db signer env tenantId fromDate toDate
    inclusionFlow ed batch targetProofId

end Batch
end ProvableAi
