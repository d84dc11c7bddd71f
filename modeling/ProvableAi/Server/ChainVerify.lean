/-
# `GET /audit/chain-verify`

The endpoint reads every ledger row of a tenant in the order of insertion,
whatever its instance, and gives the proofs to `verify_chain`, which is written
for one instance's chain: it asks for the numbers `1`, `2`, … and for links from
one proof to the next.  "Auditors expect chain_valid to reflect the actual
decision proof chain", says the comment above the query.

`Inv.linked_iff` is the reason for what follows: the proofs of a run are linked
as one list exactly if they are all on one instance, because every instance
starts again at number one.  So the audit of an honest ledger passes exactly if
no two instances have decisions (`auditChainVerify_iff`).
-/

import ProvableAi.Engine.Runs
import ProvableAi.Audit.Log

namespace ProvableAi

open HashChain

/-- The response, for a request without query parameters. -/
structure ChainVerifyResponse where
  statusCode : ℕ
  chainValid : Bool
  totalRows : ℕ
  brokenAtId : Option ℤ
  failureMsg : Option Json
  chainHash : String
  tenantId : String
  traceId : String
  totalVerifyCalls : ℕ
  auditChainValid : Bool

/-- The loop that collects `proof_dicts`: the tenant's rows `ORDER BY id`, those
that do not load left out. -/
def tenantProofs (ledger : List LedgerRow) (tenantId : String) : List Json :=
  ((ledger.filter fun r => r.tenantId = tenantId).filter LedgerRow.hasProof).filterMap fun r =>
    loads r.proofJson

section Endpoint

variable (py : Pydantic) (ed : Ed25519)

/-- `chain_valid`, `failure_msg` and `chain_hash`. -/
def auditLedger (now : String) (proofDicts : List Json) : Except PyErr (Bool × Option Json × String) :=
  if proofDicts = [] then .ok (true, none, genesisHash)
  else do
    let chainResult := verifyChain py ed now proofDicts
    let chainHash ← instanceRoot proofDicts
    .ok (chainResult.valid, chainResult.failureReason.bind fun r => r.get? "message", chainHash)

/-- `audit_chain_verify_endpoint`. -/
def auditChainVerify (db : Db) (table : List Audit.AuditRow) (now tenantId traceId : String) :
    Except PyErr ChainVerifyResponse := do
  let proofDicts := tenantProofs db.ledger tenantId
  let ledgerResult ← auditLedger py ed now proofDicts
  let auditResult ← Audit.verifyChain table tenantId
  .ok
    { statusCode := if ledgerResult.1 then 200 else 500
      chainValid := ledgerResult.1
      totalRows := proofDicts.length
      brokenAtId := none
      failureMsg := ledgerResult.2.1
      chainHash := ledgerResult.2.2
      tenantId := tenantId
      traceId := traceId
      totalVerifyCalls := auditResult.totalRows
      auditChainValid := auditResult.valid }

/-- The audit passes: the response says `chain_valid=True` and counts `n` rows. -/
def AuditPasses (db : Db) (table : List Audit.AuditRow) (now tenantId traceId : String) (n : ℕ) : Prop :=
  ∃ r, auditChainVerify py ed db table now tenantId traceId = .ok r ∧ r.chainValid = true ∧ r.totalRows = n

end Endpoint

/-! ### The proofs of a run as one list -/

variable {signer : Signer} {db : Db} {acc : List (DecisionArgs × ProofV1)}

/-- Every decision was made on one instance. -/
def OneInstance (acc : List (DecisionArgs × ProofV1)) : Prop :=
  ∀ ap ∈ acc, ∀ bp ∈ acc, ap.1.instanceId = bp.1.instanceId

namespace Inv

theorem all_wf (h : Inv signer db acc) : ∀ p ∈ acc.map Prod.snd, p.dump.wf = true := by
  intro p hp
  obtain ⟨ap, hap, rfl⟩ := List.mem_map.1 hp
  exact (h.built ap hap).wf

/-- What the endpoint reads: the proofs of all instances, as they were recorded. -/
theorem tenantProofs_eq (h : Inv signer db acc) :
    tenantProofs db.ledger defaultTenant = (acc.map Prod.snd).map ProofV1.document := by
  have htenant : db.ledger.filter (fun r => r.tenantId = defaultTenant) = db.ledger :=
    List.filter_eq_self.2 fun r hr => decide_eq_true (h.oneTenant r hr)
  have hrows : db.ledger = (acc.map Prod.snd).map ProofV1.row := by rw [h.ledger, List.map_map]; rfl
  have hwf := h.all_wf
  rw [tenantProofs, htenant, hrows]
  generalize acc.map Prod.snd = ps at hwf
  induction ps with
  | nil => rfl
  | cons p ps ih =>
    have hp := hwf p List.mem_cons_self
    rw [List.map_cons, List.filter_cons_of_pos (p.hasProof_row hp),
      List.filterMap_cons_some (f := fun r : LedgerRow => loads r.proofJson) (p.loads_row hp),
      ih fun q hq => hwf q (List.mem_cons_of_mem _ hq), List.map_cons]

/-- The instance of every decision has a first one. -/
theorem first_on (h : Inv signer db acc) {ap : DecisionArgs × ProofV1} (hap : ap ∈ acc) :
    ∃ bp ∈ acc, bp.1.instanceId = ap.1.instanceId ∧ bp.2.ledger.sequenceId = 1 := by
  have hl := h.linked ap.1.instanceId
  cases hon : onInstance ap.1.instanceId acc with
  | nil =>
    have hmem : ap ∈ onInstance ap.1.instanceId acc := List.mem_filter.2 ⟨hap, decide_eq_true rfl⟩
    rw [hon] at hmem
    cases hmem
  | cons bp rest =>
    have hmem : bp ∈ onInstance ap.1.instanceId acc := by rw [hon]; exact List.mem_cons_self
    obtain ⟨hbp, hi⟩ := List.mem_filter.1 hmem
    rw [hon] at hl
    exact ⟨bp, hbp, of_decide_eq_true hi, hl.2.1⟩

/-- **The proofs of a run are one chain exactly if they are on one instance.** -/
theorem linked_iff (h : Inv signer db acc) :
    Linked proofReading genesisHash 1 (acc.map Prod.snd) ↔ OneInstance acc := by
  constructor
  · intro hl
    -- only the first proof of the list carries the number one
    have hfirst : ∀ bp ∈ acc, bp.2.ledger.sequenceId = 1 → acc[0]? = some bp := by
      intro bp hbp hone
      obtain ⟨k, hk, rfl⟩ := List.getElem_of_mem hbp
      have hget : (acc.map Prod.snd)[k]? = some acc[k].2 := by simp [hk]
      have hseq : acc[k].2.ledger.sequenceId = 1 + k := hl.seq_get hget
      obtain rfl : k = 0 := by omega
      exact List.getElem?_eq_getElem hk
    intro ap hap bp hbp
    obtain ⟨a, ha, hai, haone⟩ := h.first_on hap
    obtain ⟨b, hb, hbi, hbone⟩ := h.first_on hbp
    have hab : a = b := Option.some.inj ((hfirst a ha haone).symm.trans (hfirst b hb hbone))
    rw [← hai, ← hbi, hab]
  · intro hone
    cases acc with
    | nil => trivial
    | cons ap rest =>
      have hon : onInstance ap.1.instanceId (ap :: rest) = ap :: rest :=
        List.filter_eq_self.2 fun bp hbp => decide_eq_true (hone bp hbp ap List.mem_cons_self)
      have hl := h.linked ap.1.instanceId
      rwa [hon] at hl

/-- The verdict on the proofs of all instances. -/
theorem verifyChain_all_iff (h : Inv signer db acc) (py : Pydantic) {ed : Ed25519} (hs : signer.Honest ed)
    (now : String) (hseed : ∀ ap ∈ acc, ¬ SeededStrict ap.1) (hne : acc ≠ []) :
    (verifyChain py ed now ((acc.map Prod.snd).map ProofV1.document)).valid = true ↔ OneInstance acc := by
  have hgenuine : ∀ p ∈ (acc.map Prod.snd).map ProofV1.canon, Genuine ed p := by
    intro p hp
    rw [List.map_map] at hp
    obtain ⟨ap, hap, rfl⟩ := List.mem_map.1 hp
    exact Genuine.canon_iff.2 (((h.built ap hap).genuine_iff hs).2 (hseed ap hap))
  have hlinked : Linked proofReading genesisHash 1 ((acc.map Prod.snd).map ProofV1.canon) ↔
      Linked proofReading genesisHash 1 (acc.map Prod.snd) :=
    linked_map (f := ProofV1.canon) (fun _ => rfl) (fun _ => rfl) (fun _ => rfl)
  rw [verifyChain_valid_iff, ← h.linked_iff, ← hlinked, mapM_parse_documents py h.all_wf]
  constructor
  · rintro ⟨-, ps, hps, -, hl⟩
    rwa [← Option.some.inj hps] at hl
  · intro hl
    exact ⟨by simpa using hne, _, rfl, hgenuine, hl⟩

/-- **The audit of an honest ledger.** -/
theorem auditPasses_iff (h : Inv signer db acc) (py : Pydantic) {ed : Ed25519} (hs : signer.Honest ed)
    (table : List Audit.AuditRow) (now traceId : String)
    (hseed : ∀ ap ∈ acc, ¬ SeededStrict ap.1) :
    AuditPasses py ed db table now defaultTenant traceId acc.length ↔ OneInstance acc := by
  obtain ⟨audit, haudit, -⟩ := Audit.verifyChain_valid_iff table defaultTenant
  have hlen : (tenantProofs db.ledger defaultTenant).length = acc.length := by
    rw [h.tenantProofs_eq, List.length_map, List.length_map]
  simp only [AuditPasses, auditChainVerify, bind_eq_ok_iff, haudit, auditLedger]
  by_cases hnil : acc = []
  · subst hnil
    have hempty : tenantProofs db.ledger defaultTenant = [] := List.length_eq_zero_iff.1 hlen
    rw [hempty]
    simp [OneInstance]
  · have hne : tenantProofs db.ledger defaultTenant ≠ [] := fun he => hnil (by simpa [he] using hlen.symm)
    rw [if_neg hne]
    rw [h.tenantProofs_eq] at hlen ⊢
    rw [instanceRoot_documents h.all_wf, ← h.verifyChain_all_iff py hs now hseed hnil]
    simp [bind, Except.bind]

end Inv

/-- **Which honest ledgers pass the tenant audit.**  After every run of the engine
in which no strict decision was given a seed, whatever verifications are logged,
the audit of the tenant that holds the rows reports a valid chain of as many rows
as decisions were recorded, if and only if these are all on one instance. -/
theorem auditChainVerify_iff (py : Pydantic) {ed : Ed25519} (hs : signer.Honest ed)
    (table : List Audit.AuditRow) (now traceId : String) (ops : List Op)
    (hseed : ∀ ap ∈ recorded (Engine.fresh.run signer ops).2, ¬ SeededStrict ap.1) :
    AuditPasses py ed (Engine.fresh.run signer ops).1.db table now defaultTenant traceId
        (recorded (Engine.fresh.run signer ops).2).length ↔
      OneInstance (recorded (Engine.fresh.run signer ops).2) :=
  (inv_run signer ops).auditPasses_iff py hs table now traceId hseed

/-- The ledger of one loan passes. -/
theorem auditChainVerify_loan :
    AuditPasses plainPydantic loanVerifier (Engine.fresh.run loanSigner (loanRun none)).1.db []
      "2026-02-01T00:00:00Z" defaultTenant "t-1" 1 := by
  obtain ⟨p, -, -, hrec⟩ := loanRun_records none
  have hiff := auditChainVerify_iff plainPydantic loanSigner_honest [] "2026-02-01T00:00:00Z" "t-1"
    (loanRun none) (by rw [hrec]; simp [loanCall, SeededStrict])
  rw [hrec] at hiff
  exact hiff.2 (by simp [OneInstance])

/-- Two strict decisions without a seed on two loans, signed by an honest signer:
the audit does not report a valid chain of two rows. -/
theorem twoLoans_audit_fails : loanSigner.Honest loanVerifier ∧
    (∃ p q, recorded (Engine.fresh.run loanSigner twoLoans).2 =
      [(loanCall "pending" "approved" none, p), (secondCall, q)]) ∧
    ¬ AuditPasses plainPydantic loanVerifier (Engine.fresh.run loanSigner twoLoans).1.db []
      "2026-02-01T00:00:00Z" defaultTenant "t-1" 2 := by
  obtain ⟨p, q, hrec⟩ := twoLoans_recorded
  have hinv := inv_run loanSigner twoLoans
  rw [hrec] at hinv
  refine ⟨loanSigner_honest, ⟨p, q, hrec⟩, fun hpass => ?_⟩
  have hone := (hinv.auditPasses_iff plainPydantic loanSigner_honest [] "2026-02-01T00:00:00Z" "t-1"
    (by simp [loanCall, secondCall, SeededStrict])).1 hpass
  have hi := hone _ List.mem_cons_self (secondCall, q) (by simp)
  exact absurd hi (by simp [loanCall, secondCall])

end ProvableAi
