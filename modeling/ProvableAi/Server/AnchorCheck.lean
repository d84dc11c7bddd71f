/-
# Anchoring a hash and checking it

`POST /audit/anchor` and `GET /audit/chain-verify?expected_hash=…` in `main.py`.
The first one anchors the last chain hash of the verification log, "the current
chain_hash"; the second one compares what it is given with the hash of the decision
ledger, which it has put in place of the log.

What was anchored is always found again (`find_anchored`), but it is the hash of
another chain: `anchored_hash_checks_iff`.
-/

import ProvableAi.Audit.Anchor
import ProvableAi.Audit.Query
import ProvableAi.Package.Binding
import ProvableAi.Server.ChainVerify

namespace ProvableAi

/-! ### The two endpoints -/

/-- What a request to anchor draws and is answered from outside. -/
structure AnchorEnv where
  anchorId : String
  now : String
  traceId : String
  /-- The answer of the timestamp authority; nothing where `ZORYNEX_ANCHOR_RFC3161` is off. -/
  rfc3161 : Option Anchor.Rfc3161
  s3Written : Bool

/-- The response of `POST /audit/anchor`. -/
structure AnchorResponse where
  anchored : Bool
  anchorId : String
  chainHash : String
  anchoredAt : String
  anchorSeq : ℤ
  /-- As the column has it. -/
  backends : String
  tenantId : String
  traceId : String

/-- `audit_anchor_endpoint`. -/
def auditAnchor (log : List Audit.AuditRow) (anchors : List Anchor.AnchorRow) (env : AnchorEnv) (tenantId : String) :
    Except PyErr (AnchorResponse × List Anchor.AnchorRow) := do
  let chainHash := Audit.getLatestChainHash log tenantId
  let (record, anchors) ← Anchor.anchor anchors
    { anchorId := env.anchorId, now := env.now, tenantId := tenantId, chainHash := chainHash, rfc3161 := env.rfc3161
      s3Written := env.s3Written }
  .ok
    ({ anchored := true, anchorId := record.anchorId, chainHash := chainHash, anchoredAt := record.anchoredAt
       anchorSeq := record.anchorSeq, backends := record.anchorBackends, tenantId := tenantId, traceId := env.traceId },
      anchors)

/-- `expected_hash_check` in the response of `GET /audit/chain-verify`. -/
structure ExpectedHashCheck where
  expectedHash : String
  hashMatches : Bool
  wasAnchored : Bool
  anchoredAt : Option String
  anchorSeq : Option ℤ
  /-- As the column has it. -/
  anchorBackends : String

/-- The check of a hash that is given. -/
def expectedHashCheck (anchors : List Anchor.AnchorRow) (tenantId chainHash expectedHash : String) : ExpectedHashCheck :=
  let anchorResult := Anchor.verifyAgainstAnchor anchors tenantId expectedHash
  { expectedHash := expectedHash, hashMatches := chainHash = expectedHash, wasAnchored := anchorResult.anchored
    anchoredAt := anchorResult.anchoredAt, anchorSeq := anchorResult.anchorSeq, anchorBackends := anchorResult.backends }

section

variable (py : Pydantic) (ed : Ed25519)

/-- `audit_chain_verify_endpoint` with `expected_hash`. -/
def auditChainVerifyExpected (db : Db) (log : List Audit.AuditRow) (anchors : List Anchor.AnchorRow)
    (now tenantId traceId : String) (expectedHash : Option String) :
    Except PyErr (ChainVerifyResponse × Option ExpectedHashCheck) := do
  let response ← auditChainVerify py ed db log now tenantId traceId
  .ok (response, (Audit.given expectedHash).map fun h => expectedHashCheck anchors tenantId response.chainHash h)

/-- The check of the hash reports that it matches and was anchored. -/
def ChecksBack (db : Db) (log : List Audit.AuditRow) (anchors : List Anchor.AnchorRow) (now tenantId traceId h : String) :
    Prop :=
  ∃ response check, auditChainVerifyExpected py ed db log anchors now tenantId traceId (some h) = .ok (response, some check) ∧
    check.hashMatches = true ∧ check.wasAnchored = true

end

/-! ### What was anchored is found -/

/-- **An anchor is found** by its tenant and its hash. -/
theorem find_anchored {anchors : List Anchor.AnchorRow} {r : Anchor.AnchorRow} (hr : r ∈ anchors) :
    (Anchor.verifyAgainstAnchor anchors r.tenantId r.chainHash).anchored = true := by
  have hmem : r ∈ (anchors.filter fun s => s.tenantId = r.tenantId ∧ s.chainHash = r.chainHash).insertionSort
      fun s q => s.anchorSeq ≤ q.anchorSeq := by
    rw [(List.perm_insertionSort _ _).mem_iff, List.mem_filter]
    exact ⟨hr, by simp⟩
  rw [Anchor.verifyAgainstAnchor, Anchor.find]
  cases hfound : (anchors.filter fun s => s.tenantId = r.tenantId ∧ s.chainHash = r.chainHash).insertionSort
      (fun s q => s.anchorSeq ≤ q.anchorSeq) with
  | nil =>
    rw [hfound] at hmem
    cases hmem
  | cons s rest => rfl

/-- What `POST /audit/anchor` anchors, and where it is then. -/
theorem auditAnchor_ok {log : List Audit.AuditRow} {anchors anchors' : List Anchor.AnchorRow} {env : AnchorEnv} {t : String}
    {response : AnchorResponse} (h : auditAnchor log anchors env t = .ok (response, anchors')) :
    response.chainHash = Audit.getLatestChainHash log t ∧
      ∃ r ∈ anchors', r.tenantId = t ∧ r.chainHash = response.chainHash := by
  obtain ⟨⟨record, anchors''⟩, hanchor, hresult⟩ := bind_eq_ok_iff.1 h
  obtain ⟨rfl, rfl⟩ := Prod.mk.inj (Except.ok.inj hresult)
  obtain ⟨entry, hentry, hrest⟩ := bind_eq_ok_iff.1 hanchor
  obtain ⟨anchors'', hinsert, hresult⟩ := bind_eq_ok_iff.1 hrest
  obtain ⟨rfl, rfl⟩ := Prod.mk.inj (Except.ok.inj hresult)
  obtain ⟨-, rfl⟩ := Anchor.insertEntry_eq_ok.1 hinsert
  have hcontent := Anchor.entry_content hentry
  refine ⟨rfl, _, List.mem_append_right _ (List.mem_singleton_self _), ?_, ?_⟩
  · rw [hcontent]
    rfl
  · rw [hcontent]
    rfl

/-! ### What it is compared with -/

/-- The `current_hash`es of the proofs, joined. -/
def JoinedHashes (proofs : List Json) (text : String) : Prop :=
  ∃ hashes : List String, List.Forall₂ (fun proof h => entryHash proof = .ok (.str h)) proofs hashes ∧
    text = String.join hashes

theorem instanceRoot_eq_ok {proofs : List Json} {root : String} :
    instanceRoot proofs = .ok root ↔ ∃ text, JoinedHashes proofs text ∧ root = sha256Hex text := by
  constructor
  · intro h
    obtain ⟨vs, hvs, hrest⟩ := bind_eq_ok_iff.1 h
    obtain ⟨text, htext, hroot⟩ := bind_eq_ok_iff.1 hrest
    obtain ⟨hashes, rfl, rfl⟩ := joinStrs_eq_ok.1 htext
    obtain rfl := Except.ok.inj hroot
    have hforall := mapM_eq_ok.1 hvs
    rw [List.forall₂_map_right_iff] at hforall
    exact ⟨_, ⟨hashes, hforall, rfl⟩, rfl⟩
  · rintro ⟨_, ⟨hashes, hforall, rfl⟩, rfl⟩
    rw [instanceRoot, mapM_eq_ok.2 (List.forall₂_map_right_iff.2 hforall), ok_bind,
      joinStrs_eq_ok.2 ⟨hashes, rfl, rfl⟩, ok_bind]
    rfl

section

variable {py : Pydantic} {ed : Ed25519} {db : Db} {t : String}

/-- The hash of the ledger that `GET /audit/chain-verify` reports. -/
theorem auditChainVerify_chainHash (log : List Audit.AuditRow) (now traceId : String)
    (hne : tenantProofs db.ledger t ≠ []) {h : String} :
    (∃ response, auditChainVerify py ed db log now t traceId = .ok response ∧ response.chainHash = h) ↔
      ∃ text, JoinedHashes (tenantProofs db.ledger t) text ∧ h = sha256Hex text := by
  obtain ⟨audit, haudit, -⟩ := Audit.verifyChain_valid_iff log t
  rw [← instanceRoot_eq_ok]
  simp only [auditChainVerify, auditLedger, if_neg hne, bind_eq_ok_iff, haudit]
  constructor
  · rintro ⟨response, ⟨ledger, ⟨root, hroot, hledger⟩, audit, -, hresponse⟩, rfl⟩
    obtain rfl := Except.ok.inj hledger
    obtain rfl := Except.ok.inj hresponse
    exact hroot
  · intro hroot
    exact ⟨_, ⟨_, ⟨h, hroot, rfl⟩, audit, rfl, rfl⟩, rfl⟩

/-- **What checks back**, of the hashes that the tenant has anchored. -/
theorem checksBack_iff {log : List Audit.AuditRow} {anchors : List Anchor.AnchorRow} {now traceId : String}
    {r : Anchor.AnchorRow} (hne : tenantProofs db.ledger r.tenantId ≠ []) (hr : r ∈ anchors) :
    ChecksBack py ed db log anchors now r.tenantId traceId r.chainHash ↔
      ∃ text, JoinedHashes (tenantProofs db.ledger r.tenantId) text ∧ r.chainHash = sha256Hex text := by
  rw [← @auditChainVerify_chainHash py ed _ _ log now traceId hne]
  constructor
  · rintro ⟨verified, check, hget, hmatch, -⟩
    obtain ⟨verified', hverify, hresult⟩ := bind_eq_ok_iff.1 hget
    obtain ⟨rfl, hcheck⟩ := Prod.mk.inj (Except.ok.inj hresult)
    obtain ⟨h, hgiven, rfl⟩ := Option.map_eq_some_iff.1 hcheck
    obtain ⟨hsome, -⟩ := Option.filter_eq_some_iff.1 hgiven
    obtain rfl := Option.some.inj hsome
    exact ⟨verified', hverify, of_decide_eq_true hmatch⟩
  · rintro ⟨verified, hverify, hchain⟩
    -- the hash is not empty, so it is checked
    obtain ⟨text, -, htext⟩ := (auditChainVerify_chainHash log now traceId hne).1 ⟨verified, hverify, hchain⟩
    have hgiven : Audit.given (some r.chainHash) = some r.chainHash := by
      rw [Audit.given, Option.filter_some, if_pos]
      rw [decide_eq_true_eq, htext]
      exact fun hempty => absurd (congrArg String.length hempty) (by rw [sha256Hex_length]; decide)
    refine ⟨verified, expectedHashCheck anchors r.tenantId verified.chainHash r.chainHash, ?_, decide_eq_true hchain,
      find_anchored hr⟩
    rw [auditChainVerifyExpected, hverify, ok_bind, hgiven]
    rfl

end

/-- A request to anchor without a timestamp. -/
def loanAnchorEnv : AnchorEnv := ⟨"anchor_0", "2026-02-01T00:00:00Z", "t-1", none, false⟩

/-- Before any verification the genesis hash is anchored. -/
theorem auditAnchor_empty : ∃ response anchors',
    auditAnchor [] [] loanAnchorEnv defaultTenant = .ok (response, anchors') ∧ response.chainHash = genesisHash := by
  have hprev : Anchor.prevAnchorHash [] defaultTenant = toHex Audit.genesisDigest :=
    Anchor.AnchorInv.nil.prevAnchorHash_eq defaultTenant
  have hnext : Anchor.nextAnchorSeq [] defaultTenant = 1 := rfl
  have hpost : ∃ result, auditAnchor [] [] loanAnchorEnv defaultTenant = .ok result := by
    rw [auditAnchor, Anchor.anchor, hnext, hprev, Anchor.entry_hex]
    exact ⟨_, rfl⟩
  obtain ⟨⟨response, anchors'⟩, hpost⟩ := hpost
  exact ⟨response, anchors', hpost, (auditAnchor_ok hpost).1⟩

/-- The ledger of one loan. -/
theorem tenantProofs_loan : ∃ p, IsLoan p ∧
    tenantProofs (Engine.fresh.run loanSigner (loanRun none)).1.db.ledger defaultTenant = [p.document] := by
  obtain ⟨p, hb, -, hrec⟩ := loanRun_records none
  have hinv := inv_run loanSigner (loanRun none)
  rw [hrec] at hinv
  exact ⟨p, isLoan_of_buildProof hb, hinv.tenantProofs_eq⟩

end ProvableAi
