/-
# Drift detection

`drift_detector.py`: a snapshot of a tenant's ledger and audit log, and the
comparison of two snapshots.

A snapshot keeps the number of instances and one digest of their latest hashes,
sorted.  The hash of a decision does not cover the instance it is made on, so the
comparison cannot tell under which instance a chain of decisions stands: two
ledgers that hold the same chains under other instances compare as "No drift
detected. Environments are consistent."  That is all it misses
(`drift_complete_iff`).
-/

import ProvableAi.Audit.Log
import ProvableAi.Engine.ProofIds
import Mathlib.Data.List.Dedup

namespace ProvableAi
namespace Drift

open HashChain

/-! ### The program -/

/-- `SystemSnapshot`. -/
structure SystemSnapshot where
  snapshotId : String
  tenantId : String
  environment : String
  systemRoot : String
  instanceCount : ℕ
  auditChainHash : String
  auditRowCount : ℕ
  recordedAt : String

/-- The latest rows of a tenant: the subquery of `take_snapshot` compares rows of one
tenant. -/
def tenantLedger (ledger : List LedgerRow) (tenantId : String) : List LedgerRow :=
  ledger.filter fun r => r.tenantId = tenantId

/-- `take_snapshot`; the id and the time are those it makes. -/
def takeSnapshot (ledger : List LedgerRow) (audit : List Audit.AuditRow) (tenantId environment snapshotId now : String) :
    SystemSnapshot where
  snapshotId := snapshotId
  tenantId := tenantId
  environment := environment
  systemRoot := computeSystemRoot (latestHashes (tenantLedger ledger tenantId))
  instanceCount := (latestHashes (tenantLedger ledger tenantId)).length
  auditChainHash := Audit.getLatestChainHash audit tenantId
  auditRowCount := (audit.filter fun r => r.tenantId = tenantId).length
  recordedAt := now

/-- An indicator of drift. -/
inductive Issue where
  | rootMismatch
  | chainMismatch
  | countMismatch
  deriving DecidableEq

/-- `drift_type`. -/
inductive DriftType where
  | one (i : Issue)
  | combined
  deriving DecidableEq

/-- `severity`. -/
inductive Severity where
  | ok
  | warning
  | critical
  deriving DecidableEq

/-- `DriftResult`. -/
structure DriftResult where
  drifted : Bool
  driftType : Option DriftType
  severity : Severity
  snapA : SystemSnapshot
  snapB : SystemSnapshot
  details : Json
  recommendation : String

/-- `_severity`. -/
def severity (issues : List Issue) : Severity :=
  if .rootMismatch ∈ issues then .critical
  else if issues.length > 1 then .critical
  else .warning

/-- `_recommendation`. -/
def recommendation (driftType : DriftType) (envA envB : String) : String :=
  match driftType with
  | .one .rootMismatch =>
    "CRITICAL: Proof ledger has diverged between " ++ envA ++ " and " ++ envB ++ ". " ++
    "Do not trust either environment until the cause is identified. " ++
    "Compare ledger entries manually and check for unauthorized DB writes."
  | .one .chainMismatch =>
    "Audit log chains differ between " ++ envA ++ " and " ++ envB ++ ". " ++
    "Verify chain integrity on both: GET /audit/chain-verify. " ++
    "This may indicate different verification activity, not data corruption."
  | .one .countMismatch =>
    "Instance or audit counts differ between " ++ envA ++ " and " ++ envB ++ ". " ++
    "This is expected if environments are not fully synced. " ++
    "If they should be identical, check for missing sync."
  | .combined =>
    "Multiple drift indicators between " ++ envA ++ " and " ++ envB ++ ". " ++
    "This is CRITICAL — treat as potential data integrity incident. " ++
    "Isolate both environments and compare ledger entries."

/-- A snapshot in the details. -/
def summary (s : SystemSnapshot) : Json :=
  .obj [("id", .str s.snapshotId), ("env", .str s.environment), ("recorded_at", .str s.recordedAt),
    ("system_root", .str s.systemRoot), ("instance_count", .int s.instanceCount),
    ("audit_chain_hash", .str s.auditChainHash), ("audit_row_count", .int s.auditRowCount)]

/-- The two values of a field, by environment. -/
def byEnvironment (a b : SystemSnapshot) (field : SystemSnapshot → Json) : Json :=
  .obj (ofMembers [(a.environment, field a), (b.environment, field b)])

/-- What `compare` finds: the issues, each with the field it enters into `mismatches`. -/
def findings (a b : SystemSnapshot) : List (Issue × String × Json) :=
  (if a.systemRoot ≠ b.systemRoot then
    [(.rootMismatch, "system_root", byEnvironment a b fun s => .str s.systemRoot)] else []) ++
  (if a.auditChainHash ≠ b.auditChainHash then
    [(.chainMismatch, "audit_chain_hash", byEnvironment a b fun s => .str s.auditChainHash)] else []) ++
  (if a.instanceCount ≠ b.instanceCount then
    [(.countMismatch, "instance_count", byEnvironment a b fun s => .int s.instanceCount)]
  else if a.auditRowCount ≠ b.auditRowCount then
    [(.countMismatch, "audit_row_count", byEnvironment a b fun s => .int s.auditRowCount)]
  else [])

/-- `DriftDetector.compare`. -/
def compare (a b : SystemSnapshot) : DriftResult :=
  let details := Json.obj [("snap_a", summary a), ("snap_b", summary b),
    ("mismatches", .obj ((findings a b).map Prod.snd))]
  match (findings a b).map Prod.fst with
  | [] => ⟨false, none, .ok, a, b, details, "No drift detected. Environments are consistent."⟩
  | i :: is =>
    let driftType := if is.length > 0 then .combined else .one i
    ⟨true, some driftType, severity (i :: is), a, b, details, recommendation driftType a.environment b.environment⟩

/-- The comparison reports a mismatch of a field. -/
def DriftResult.reports (r : DriftResult) (field : String) : Bool :=
  ((r.details.get? "mismatches").bind fun m => m.get? field).isSome

theorem compare_details (a b : SystemSnapshot) : (compare a b).details =
    .obj [("snap_a", summary a), ("snap_b", summary b), ("mismatches", .obj ((findings a b).map Prod.snd))] := by
  rw [compare]
  split <;> rfl

/-- The comparison reports the roots exactly if they differ. -/
theorem compare_reports_root (a b : SystemSnapshot) :
    (compare a b).reports "system_root" = false ↔ a.systemRoot = b.systemRoot := by
  have hreports : (compare a b).reports "system_root" =
      (((findings a b).map Prod.snd).lookup "system_root").isSome := by
    rw [DriftResult.reports, compare_details]
    rfl
  rw [hreports, findings]
  by_cases hroot : a.systemRoot = b.systemRoot
  · simp only [hroot, ne_eq, not_true_eq_false, if_false, List.nil_append, iff_true]
    split_ifs <;> rfl
  · simp [hroot]

/-! ### Chains by instance -/

/-- The instances that have decisions. -/
def instances (acc : List (DecisionArgs × ProofV1)) : List String := (acc.map fun ap => ap.1.instanceId).dedup

/-- The contents recorded on an instance. -/
def historyOf (acc : List (DecisionArgs × ProofV1)) (i : String) : List ProofV1.Content :=
  (onInstance i acc).map fun ap => ap.2.content

/-- The latest hash of an instance. -/
def latestHash (ledger : List LedgerRow) (tenantId i : String) : Option String :=
  (lastRow ledger tenantId i).map LedgerRow.currentHash

theorem mem_instances {acc : List (DecisionArgs × ProofV1)} {i : String} : i ∈ instances acc ↔ onInstance i acc ≠ [] := by
  simp [instances, onInstance, List.filter_eq_nil_iff]

section Ledger

variable {signer signer' : Signer} {db db' : Db} {acc acc' : List (DecisionArgs × ProofV1)}

theorem latestHash_eq (h : Inv signer db acc) (i : String) :
    latestHash db.ledger defaultTenant i = (onInstance i acc).getLast?.map fun ap => ap.2.ledger.currentHash.text := by
  rw [latestHash, lastRow_eq h.chained, h.rowsOf_eq, List.getLast?_map, List.getLast?_map, Option.map_map, Option.map_map]
  rfl

theorem onInstance_ne_nil (h : Inv signer db acc) (i : String) :
    onInstance i acc ≠ [] ↔ rowsOf db.ledger defaultTenant i ≠ [] := by
  rw [h.rowsOf_eq]
  simp

/-- The ids of the latest rows are the instances. -/
theorem latestRows_ids (h : Inv signer db acc) :
    ((latestRows db.ledger).map LedgerRow.instanceId).Perm (instances acc) := by
  have hon : ∀ i, (latestRows db.ledger).filter (fun r => r.instanceId = i) =
      (rowsOf db.ledger defaultTenant i).getLast?.toList := latestRows_on h.chained h.oneTenant
  refine (List.perm_ext_iff_of_nodup ?_ (List.nodup_dedup _)).2 fun i => ?_
  · -- an instance has at most one latest row
    refine List.nodup_iff_count_le_one.2 fun i => ?_
    have hcount : List.count i ((latestRows db.ledger).map LedgerRow.instanceId) =
        ((latestRows db.ledger).filter fun r => r.instanceId = i).length := by
      rw [List.count_eq_length_filter, List.filter_map, List.length_map]
      refine congrArg List.length (List.filter_congr fun r _ => ?_)
      simp [beq_eq_decide]
    rw [hcount, hon i]
    cases (rowsOf db.ledger defaultTenant i).getLast? <;> simp
  · rw [← instances, mem_instances, onInstance_ne_nil h]
    have hmem : i ∈ (latestRows db.ledger).map LedgerRow.instanceId ↔
        (latestRows db.ledger).filter (fun r => r.instanceId = i) ≠ [] := by
      simp [List.filter_eq_nil_iff]
    rw [hmem, hon i]
    simp

/-- **The latest hashes are those of the instances**, up to order. -/
theorem latestHashes_instances (h : Inv signer db acc) :
    ((latestHashes db.ledger).map some).Perm ((instances acc).map (latestHash db.ledger defaultTenant)) := by
  have hrows : (latestRows db.ledger).map (fun r => some r.currentHash) =
      ((latestRows db.ledger).map LedgerRow.instanceId).map (latestHash db.ledger defaultTenant) := by
    rw [List.map_map]
    refine List.map_congr_left fun r hr => ?_
    have hmem : r ∈ (latestRows db.ledger).filter fun x => x.instanceId = r.instanceId := by
      simp [hr]
    rw [latestRows_on h.chained h.oneTenant, Option.mem_toList] at hmem
    rw [Function.comp_apply, latestHash, lastRow_eq h.chained, hmem]
    rfl
  refine ((latestHashes_perm db.ledger).map some).trans ?_
  rw [List.map_map]
  exact hrows ▸ (latestRows_ids h).map _

/-- The latest hashes of two instances are equal exactly if their chains hold the
same contents. -/
theorem latestHash_eq_iff (h : Inv signer db acc) (h' : Inv signer' db' acc') {texts : Set String}
    (hsha : CollisionFree texts) (hdec : decisionTexts acc ⊆ texts) (hdec' : decisionTexts acc' ⊆ texts) (i j : String) :
    latestHash db.ledger defaultTenant i = latestHash db'.ledger defaultTenant j ↔ historyOf acc i = historyOf acc' j := by
  rw [latestHash_eq h, latestHash_eq h', historyOf, historyOf]
  obtain hi | ⟨as, ap, hi⟩ := List.eq_nil_or_concat (onInstance i acc)
  · obtain hj | ⟨bs, bq, hj⟩ := List.eq_nil_or_concat (onInstance j acc')
    · simp [hi, hj]
    · simp [hi, hj]
  · obtain hj | ⟨bs, bq, hj⟩ := List.eq_nil_or_concat (onInstance j acc')
    · simp [hi, hj]
    · rw [List.concat_eq_append] at hi hj
      constructor
      · intro hlast
        refine h.contents_of_tip h' hsha hdec hdec' (by simp [hi]) (by simp [hj]) ?_
        rw [hi, hj, List.getLast?_concat, List.getLast?_concat] at hlast
        rw [hi, hj, List.map_append, List.map_append, List.map_singleton, List.map_singleton, tip_concat, tip_concat]
        exact Option.some.inj hlast
      · intro hhist
        have hap := h.built ap (List.mem_filter.1 (hi ▸ List.mem_concat_self : ap ∈ onInstance i acc)).1
        have hbq := h'.built bq (List.mem_filter.1 (hj ▸ List.mem_concat_self : bq ∈ onInstance j acc')).1
        have hc : ap.2.content = bq.2.content := by
          have hlast := congrArg List.getLast? hhist
          rw [hi, hj] at hlast
          simpa using hlast
        rw [hi, hj, List.getLast?_concat, List.getLast?_concat, Option.map_some, Option.map_some, hap.hash_eq,
          hbq.hash_eq, ProofV1.dumps_of_content hc]

end Ledger

/-! ### What the comparison misses -/

/-- The two ledgers have the same latest hash on every instance: the same instances,
and the same hash on each. -/
def SameState (tenantId : String) (ledger ledger' : List LedgerRow) : Prop :=
  ∀ i, latestHash ledger tenantId i = latestHash ledger' tenantId i

/-- What drift detection promises of two ledgers: if the comparison of their snapshots
reports no mismatch of the roots and they count as many instances, they are in the
same state. -/
def DriftComplete (a b : SystemSnapshot) (tenantId : String) (ledger ledger' : List LedgerRow) : Prop :=
  (compare a b).reports "system_root" = false → a.instanceCount = b.instanceCount → SameState tenantId ledger ledger'

/-- The two ledgers hold the same chains of decisions, but not on the same instances. -/
def Relabelled (acc acc' : List (DecisionArgs × ProofV1)) : Prop :=
  ((instances acc).map (historyOf acc)).Perm ((instances acc').map (historyOf acc')) ∧
    ∃ i, historyOf acc i ≠ historyOf acc' i

section Complete

variable {signer signer' : Signer} {db db' : Db} {acc acc' : List (DecisionArgs × ProofV1)} {texts : Set String}

theorem tenantLedger_default (h : Inv signer db acc) : tenantLedger db.ledger defaultTenant = db.ledger :=
  List.filter_eq_self.2 fun r hr => by simpa using h.oneTenant r hr

/-- The latest hashes agree up to order exactly if the chains do. -/
theorem latestHashes_perm_iff (h : Inv signer db acc) (h' : Inv signer' db' acc') (hsha : CollisionFree texts)
    (hdec : decisionTexts acc ⊆ texts) (hdec' : decisionTexts acc' ⊆ texts) :
    (latestHashes db.ledger).Perm (latestHashes db'.ledger) ↔
      ((instances acc).map (historyOf acc)).Perm ((instances acc').map (historyOf acc')) := by
  have hiff := latestHash_eq_iff h h' hsha hdec hdec'
  constructor
  · intro hperm
    have hlatest := ((latestHashes_instances h).symm.trans (hperm.map some)).trans (latestHashes_instances h')
    exact Reorder.map_perm_congr hlatest fun i _ j _ hij => (hiff i j).1 hij
  · intro hperm
    have hlatest := Reorder.map_perm_congr hperm fun i _ j _ hij => (hiff i j).2 hij
    have hsome := ((latestHashes_instances h).trans hlatest).trans (latestHashes_instances h').symm
    have hget := hsome.map fun o => o.getD ""
    simpa using hget

/-- A tenant without rows is in the same state everywhere. -/
theorem sameState_of_ne (h : Inv signer db acc) (h' : Inv signer' db' acc') {tenantId : String}
    (hne : tenantId ≠ defaultTenant) : SameState tenantId db.ledger db'.ledger := by
  have hnone : ∀ {l : List LedgerRow}, OneTenant l → ∀ i, latestHash l tenantId i = none := by
    intro l ho i
    have hrows : rowsOf l tenantId i = [] := List.filter_eq_nil_iff.2 fun r hr => by
      simp [ho r hr, Ne.symm hne]
    rw [latestHash, lastRow, hrows]
    rfl
  intro i
  rw [hnone h.oneTenant, hnone h'.oneTenant]

/-- **When drift detection is complete** on two ledgers: exactly if they do not hold
the same chains of decisions on other instances. -/
theorem driftComplete_iff (h : Inv signer db acc) (h' : Inv signer' db' acc') (hsha : CollisionFree texts)
    (hdec : decisionTexts acc ⊆ texts) (hdec' : decisionTexts acc' ⊆ texts)
    (ht : systemText (latestHashes db.ledger) ∈ texts) (ht' : systemText (latestHashes db'.ledger) ∈ texts)
    (audit audit' : List Audit.AuditRow) (tenantId env env' id id' now now' : String) :
    DriftComplete (takeSnapshot db.ledger audit tenantId env id now) (takeSnapshot db'.ledger audit' tenantId env' id' now')
        tenantId db.ledger db'.ledger ↔
      (tenantId = defaultTenant → ¬ Relabelled acc acc') := by
  by_cases hd : tenantId = defaultTenant
  · subst hd
    have hroot : (takeSnapshot db.ledger audit defaultTenant env id now).systemRoot =
          (takeSnapshot db'.ledger audit' defaultTenant env' id' now').systemRoot ∧
        (takeSnapshot db.ledger audit defaultTenant env id now).instanceCount =
          (takeSnapshot db'.ledger audit' defaultTenant env' id' now').instanceCount ↔
        ((instances acc).map (historyOf acc)).Perm ((instances acc').map (historyOf acc')) := by
      simp only [takeSnapshot, tenantLedger_default h, tenantLedger_default h']
      rw [computeSystemRoot_eq_iff h.length_latestHashes h'.length_latestHashes hsha ht ht',
        latestHashes_perm_iff h h' hsha hdec hdec']
    have hstate : SameState defaultTenant db.ledger db'.ledger ↔ ∀ i, historyOf acc i = historyOf acc' i :=
      forall_congr' fun i => latestHash_eq_iff h h' hsha hdec hdec' i i
    rw [DriftComplete, compare_reports_root, ← and_imp, hroot, hstate, Relabelled]
    simp
  · exact iff_of_true (fun _ _ => sameState_of_ne h h' hd) fun heq => absurd heq hd

/-- The texts that are hashed for two runs and for the roots of their ledgers. -/
def driftTexts (signer signer' : Signer) (ops ops' : List Op) : Set String :=
  decisionTexts (recorded (Engine.fresh.run signer ops).2) ∪ decisionTexts (recorded (Engine.fresh.run signer' ops').2) ∪
    {systemText (latestHashes (Engine.fresh.run signer ops).1.db.ledger),
      systemText (latestHashes (Engine.fresh.run signer' ops').1.db.ledger)}

/-- **What drift detection misses.**  For any two ledgers built by runs, of any
signers, and any tenant: no reported mismatch of the roots and equal counts of
instances mean the same state exactly if the ledgers do not hold the same chains of
decisions on other instances. -/
theorem drift_complete_iff (ops ops' : List Op) (hsha : CollisionFree (driftTexts signer signer' ops ops'))
    (audit audit' : List Audit.AuditRow) (tenantId env env' id id' now now' : String) :
    DriftComplete (takeSnapshot (Engine.fresh.run signer ops).1.db.ledger audit tenantId env id now)
        (takeSnapshot (Engine.fresh.run signer' ops').1.db.ledger audit' tenantId env' id' now') tenantId
        (Engine.fresh.run signer ops).1.db.ledger (Engine.fresh.run signer' ops').1.db.ledger ↔
      (tenantId = defaultTenant →
        ¬ Relabelled (recorded (Engine.fresh.run signer ops).2) (recorded (Engine.fresh.run signer' ops').2)) :=
  driftComplete_iff (inv_run signer ops) (inv_run signer' ops') hsha (fun _ h => .inl (.inl h)) (fun _ h => .inl (.inr h))
    (.inr (.inl rfl)) (.inr (.inr rfl)) audit audit' tenantId env env' id id' now now'

end Complete

/-! One loan in two environments. -/

/-- The latest hash of a ledger with one row is that row's. -/
theorem latestHashes_of_loan {db : Db} {a : DecisionArgs} {p : ProofV1} (h : Inv loanSigner db [(a, p)])
    (hp : p.payload = loanPayload) : latestHashes db.ledger = [loanHash] := by
  have hcur : p.row.currentHash = loanHash := by
    have hcur : p.ledger.currentHash.text = loanHash := by
      rw [(h.built _ (List.mem_singleton_self _)).hash_eq, hp, loanHash]
    exact hcur
  rw [h.ledger, List.map_singleton, latestHashes_singleton, hcur]

/-- What is hashed for such ledgers. -/
theorem driftTexts_loan {ops ops' : List Op} {a b : DecisionArgs} {p q : ProofV1}
    (hrec : recorded (Engine.fresh.run loanSigner ops).2 = [(a, p)])
    (hrec' : recorded (Engine.fresh.run loanSigner ops').2 = [(b, q)]) (hp : p.payload = loanPayload)
    (hq : q.payload = loanPayload) : driftTexts loanSigner loanSigner ops ops' ⊆ {loanHash, dumps loanPayload} := by
  have hinv := inv_run loanSigner ops
  have hinv' := inv_run loanSigner ops'
  rw [hrec] at hinv
  rw [hrec'] at hinv'
  rw [driftTexts, hrec, hrec', latestHashes_of_loan hinv hp, latestHashes_of_loan hinv' hq, systemText_singleton]
  rintro t ((⟨ap, hap, rfl⟩ | ⟨ap, hap, rfl⟩) | rfl | rfl)
  · rw [List.mem_singleton.1 hap]
    exact .inr (congrArg dumps hp)
  · rw [List.mem_singleton.1 hap]
    exact .inr (congrArg dumps hq)
  · exact .inl rfl
  · exact .inl rfl

/-- The ledger of the loan in production and in staging. -/
theorem drift_complete_loan : DriftComplete
    (takeSnapshot (Engine.fresh.run loanSigner (loanRun none)).1.db.ledger [] defaultTenant "prod" "snap_1"
      "2026-04-30T12:00:00Z")
    (takeSnapshot (Engine.fresh.run loanSigner (loanRun none)).1.db.ledger [] defaultTenant "staging" "snap_2"
      "2026-04-30T12:00:00Z") defaultTenant
    (Engine.fresh.run loanSigner (loanRun none)).1.db.ledger (Engine.fresh.run loanSigner (loanRun none)).1.db.ledger := by
  obtain ⟨p, hb, -, hrec⟩ := loanRun_records none
  have hp := (isLoan_of_buildProof hb).payload
  refine (drift_complete_iff (loanRun none) (loanRun none)
    (loan_collisionFree.mono (driftTexts_loan hrec hrec hp hp)) [] [] defaultTenant "prod" "staging" "snap_1" "snap_2"
    "2026-04-30T12:00:00Z" "2026-04-30T12:00:00Z").2 fun _ hrel => ?_
  obtain ⟨-, i, hne⟩ := hrel
  exact hne rfl

/-- The loan's decision on another loan, alone. -/
def secondRun : List Op := approvals ++ [.recordDecision loanEnv secondCall]

theorem secondRun_records : ∃ q, recorded (Engine.fresh.run loanSigner secondRun).2 = [(secondCall, q)] ∧
    q.payload = loanPayload := by
  have hr : Recordable approved.db secondCall :=
    { approved_recordable none with instanceId_ne := (by decide : "loan_2" ≠ "") }
  obtain ⟨q, hb, hq⟩ := approved_inv.record_returns loanEnv hr rfl (by simp [onInstance])
  obtain ⟨hbuilt, hprev, hseq⟩ := buildProof_ok approved_inv.chained approved_inv.hexRows hb
  have hbuilt : Built loanSigner { loanCall "pending" "approved" none with instanceId := "loan_2" } q := hbuilt
  refine ⟨q, ?_, ?_⟩
  · have hnone : recorded (Engine.fresh.run loanSigner approvals).2 = [] := rfl
    rw [secondRun, Engine.run_append, recorded_append, hnone, ← approved, Engine.run, Engine.step, hq]
    rfl
  · rw [hbuilt.loan_payload (by decide) (by decide), hprev, hseq]
    rfl

/-- One decision, on one loan here and on another there: no drift is reported. -/
theorem relabelled_loan_undetected : ¬ DriftComplete
    (takeSnapshot (Engine.fresh.run loanSigner (loanRun none)).1.db.ledger [] defaultTenant "prod" "snap_1"
      "2026-04-30T12:00:00Z")
    (takeSnapshot (Engine.fresh.run loanSigner secondRun).1.db.ledger [] defaultTenant "staging" "snap_2"
      "2026-04-30T12:00:00Z") defaultTenant
    (Engine.fresh.run loanSigner (loanRun none)).1.db.ledger (Engine.fresh.run loanSigner secondRun).1.db.ledger := by
  obtain ⟨p, hb, -, hrec⟩ := loanRun_records none
  obtain ⟨q, hrec', hq⟩ := secondRun_records
  have hp := (isLoan_of_buildProof hb).payload
  have hinv := inv_run loanSigner (loanRun none)
  have hinv' := inv_run loanSigner secondRun
  rw [hrec] at hinv
  rw [hrec'] at hinv'
  intro hcomplete
  have hroot : computeSystemRoot (latestHashes (Engine.fresh.run loanSigner (loanRun none)).1.db.ledger) =
      computeSystemRoot (latestHashes (Engine.fresh.run loanSigner secondRun).1.db.ledger) := by
    rw [latestHashes_of_loan hinv hp, latestHashes_of_loan hinv' hq]
  have hstate := hcomplete ((compare_reports_root _ _).2 (by
    simp only [takeSnapshot, tenantLedger_default hinv, tenantLedger_default hinv', hroot])) (by
    simp only [takeSnapshot, tenantLedger_default hinv, tenantLedger_default hinv', latestHashes_of_loan hinv hp,
      latestHashes_of_loan hinv' hq]) "loan_1"
  rw [latestHash_eq hinv, latestHash_eq hinv'] at hstate
  simp [onInstance, loanCall, secondCall] at hstate

end Drift
end ProvableAi
