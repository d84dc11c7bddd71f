/-
# The SQLite ledger

`storage.py`, class `SQLiteStorage`: the tables as lists of rows in the order
of their `rowid`, and the statements the methods execute on them.

`INSERT INTO ledger` checks what the database checks: the lengths of
`current_hash` and `signature`, the sign of `sequence_id`, and the two unique
indexes that `_migrate_schema` creates.  `UPDATE` and `DELETE` of ledger rows
are blocked by triggers and no method issues one, so the only change to the
table is a row at its end.

`appendLedgerEntry` is the method on a connection with no open transaction and
no other writer; `Storage.Concurrent` runs its statements one by one.

The invariant of the table is `Db.Chained`: for each tenant and instance the
rows form a hash chain from the genesis hash.  Under it the `ORDER BY` clauses
are the order of insertion (`lastRow_eq`, `getLedgerChain_eq`), and the checks
of `_validate_chain_integrity` are exactly the condition under which a row
keeps it (`checkLink_ok_iff`).
-/

import ProvableAi.Canonical
import ProvableAi.Lib.HashChain
import Mathlib.Data.List.MinMax

namespace ProvableAi

/-! ### Rows -/

/-- A row of `ledger`. -/
structure LedgerRow where
  tenantId : String
  instanceId : String
  sequenceId : ℤ
  previousHash : String
  currentHash : String
  signature : String
  keyId : String
  protocolHash : String
  fromState : String
  toState : String
  actor : String
  inputHash : String
  outputHash : String
  modelVersion : String
  agentVersion : String
  policyVersion : String
  metadataJson : String
  proofJson : String
  schemaVersion : String
  version : ℤ
  timestamp : String
  deriving DecidableEq

/-- A row of `instances`. -/
structure InstanceRow where
  tenantId : String
  instanceId : String
  protocolHash : String
  currentState : String
  version : ℤ
  frozen : Bool
  createdAt : String
  deriving DecidableEq

/-- A row of `protocols`. -/
structure ProtocolRow where
  protocolHash : String
  specJson : String
  active : Bool
  createdAt : String
  deriving DecidableEq

/-- A row of `approved_models` or `approved_agents`. -/
structure ApprovedVersion where
  version : String
  name : String
  createdAt : String
  deriving DecidableEq

/-- A row of `approved_policies`. -/
structure ApprovedPolicy where
  policyVersion : String
  active : Bool
  createdAt : String
  deriving DecidableEq

/-- The tables. -/
structure Db where
  ledger : List LedgerRow
  instances : List InstanceRow
  protocols : List ProtocolRow
  approvedModels : List ApprovedVersion
  approvedAgents : List ApprovedVersion
  approvedPolicies : List ApprovedPolicy
  deriving DecidableEq

/-- A database that `__init__` has just created. -/
def Db.fresh : Db := ⟨[], [], [], [], [], []⟩

/-- The default of every `tenant_id` argument and column. -/
def defaultTenant : String := "default"

/-! ### Reading the ledger -/

/-- `WHERE tenant_id = ? AND instance_id = ?`, in the order of insertion. -/
def rowsOf (ledger : List LedgerRow) (tenantId instanceId : String) : List LedgerRow :=
  ledger.filter fun r => r.tenantId = tenantId ∧ r.instanceId = instanceId

/-- `… ORDER BY sequence_id DESC LIMIT 1`. -/
def lastRow (ledger : List LedgerRow) (tenantId instanceId : String) : Option LedgerRow :=
  @List.argmax _ _ Int.instLinearOrder.toPreorder Int.decLt LedgerRow.sequenceId (rowsOf ledger tenantId instanceId)

/-- `get_latest_ledger_entry`. -/
def Db.getLatestLedgerEntry (db : Db) (instanceId : String) (tenantId : String) : Option LedgerRow :=
  lastRow db.ledger tenantId instanceId

/-- `get_ledger_entry`, up to the parsed `proof` it adds. -/
def Db.getLedgerEntry (db : Db) (instanceId : String) (sequenceId : Option ℤ) (tenantId : String) :
    Option LedgerRow :=
  match sequenceId with
  | some n => (rowsOf db.ledger tenantId instanceId).find? fun r => r.sequenceId = n
  | none => lastRow db.ledger tenantId instanceId

/-- `get_ledger_chain`: `… ORDER BY sequence_id ASC`. -/
def Db.getLedgerChain (db : Db) (instanceId : String) (tenantId : String) : List LedgerRow :=
  (rowsOf db.ledger tenantId instanceId).insertionSort fun a b => a.sequenceId ≤ b.sequenceId

/-- `get_max_sequence_id`. -/
def maxSequenceId (ledger : List LedgerRow) (tenantId instanceId : String) : ℤ :=
  ((lastRow ledger tenantId instanceId).map LedgerRow.sequenceId).getD 0

/-! ### Validating before the insert -/

/-- The first `SELECT` of `_validate_chain_integrity`: a row of the instance
under another tenant is refused. -/
def checkConflict (ledger : List LedgerRow) (instanceId tenantId : String) : Except PyErr Unit :=
  match ledger.find? fun r => r.instanceId = instanceId ∧ r.tenantId ≠ tenantId with
  | some r => .error (.ledgerError ("instance_id '" ++ instanceId ++ "' already exists under tenant '" ++
      r.tenantId ++ "'. Cross-tenant instance reuse is forbidden."))
  | none => .ok ()

/-- The second one: the number must be the next one and `previous_hash` the last
`current_hash`. -/
def checkLink (ledger : List LedgerRow) (instanceId : String) (sequenceId : ℤ) (previousHash tenantId : String) :
    Except PyErr Unit :=
  let expectedSeq := maxSequenceId ledger tenantId instanceId + 1
  let expectedPrev := ((lastRow ledger tenantId instanceId).map LedgerRow.currentHash).getD genesisHash
  if sequenceId < expectedSeq then .error (.duplicateSequenceId sequenceId)
  else if sequenceId > expectedSeq then .error (.sequenceGap expectedSeq sequenceId)
  else if previousHash ≠ expectedPrev then .error (.chainBroken sequenceId expectedPrev previousHash)
  else .ok ()

/-- `_validate_chain_integrity`. -/
def validateChainIntegrity (ledger : List LedgerRow) (instanceId : String) (sequenceId : ℤ)
    (previousHash tenantId : String) : Except PyErr Unit :=
  match checkConflict ledger instanceId tenantId with
  | .error e => .error e
  | .ok _ => checkLink ledger instanceId sequenceId previousHash tenantId

/-! ### Inserting -/

/-- SQL `length` of a text: the characters before the first NUL. -/
def sqlLength (s : String) : ℕ := (s.toList.takeWhile (· ≠ Char.ofNat 0)).length

/-- What the database checks of a new row: the `CHECK`s of the table and the two
unique indexes. -/
def Admissible (ledger : List LedgerRow) (row : LedgerRow) : Prop :=
  sqlLength row.currentHash = 64 ∧ sqlLength row.signature = 128 ∧
    (row.sequenceId ≥ 1 ∨ row.sequenceId = 0) ∧
    (∀ r ∈ rowsOf ledger row.tenantId row.instanceId, r.sequenceId ≠ row.sequenceId) ∧
    (∀ r ∈ rowsOf ledger row.tenantId row.instanceId, r.currentHash ≠ row.currentHash)

instance (ledger : List LedgerRow) (row : LedgerRow) : Decidable (Admissible ledger row) :=
  inferInstanceAs (Decidable (_ ∧ _))

/-- `INSERT INTO ledger`. -/
def insertLedger (ledger : List LedgerRow) (row : LedgerRow) : Except PyErr (List LedgerRow) :=
  if Admissible ledger row then .ok (ledger ++ [row]) else .error .integrityError

/-- `INSERT OR IGNORE INTO instances`: `instance_id` is unique, `created_at` is
`NOT NULL` without a default. -/
def insertInstance (instances : List InstanceRow) (tenantId instanceId protocolHash currentState : String)
    (createdAt : Option String) : List InstanceRow :=
  match createdAt with
  | none => instances
  | some createdAt =>
    if instances.any fun r => r.instanceId = instanceId then instances
    else instances ++ [⟨tenantId, instanceId, protocolHash, currentState, 0, false, createdAt⟩]

/-- The `SELECT` of `_ensure_instance`: the row is there. -/
def hasInstance (instances : List InstanceRow) (tenantId instanceId : String) : Bool :=
  instances.any fun r => r.tenantId = tenantId ∧ r.instanceId = instanceId

/-- `_ensure_instance`. -/
def ensureInstance (instances : List InstanceRow) (instanceId protocolHash currentState tenantId now : String) :
    List InstanceRow :=
  if hasInstance instances tenantId instanceId then instances
  else insertInstance instances tenantId instanceId protocolHash currentState (some now)

/-- A proof dict as `append_ledger_entry` reads it, its values of the types the
schema gives them; `json` is the dict itself, which is stored. -/
structure ProofDict where
  tenantId : Option String
  instanceId : String
  sequenceId : ℤ
  previousHash : String
  currentHash : String
  timestamp : String
  fromState : String
  toState : String
  modelVersion : String
  agentVersion : String
  policyVersion : String
  metadata : Json
  signatureValue : String
  keyId : String
  type : Option String
  json : Json

namespace ProofDict

/-- `proof_dict.get("tenant_id", "default")`. -/
def tenant (p : ProofDict) : String := p.tenantId.getD defaultTenant

/-- The check of the signature before any `SELECT`. -/
def checkSignature (p : ProofDict) : Except PyErr Unit :=
  if p.signatureValue.length = 128 then .ok ()
  else .error (.signingFailed p.keyId ("Signature value must be 128 hex chars (64-byte Ed25519), got " ++
    toString p.signatureValue.length ++ " chars."))

/-- The row that is inserted. -/
def row (p : ProofDict) : LedgerRow where
  tenantId := p.tenant
  instanceId := p.instanceId
  sequenceId := p.sequenceId
  previousHash := p.previousHash
  currentHash := p.currentHash
  signature := p.signatureValue
  keyId := p.keyId
  protocolHash := p.policyVersion
  fromState := p.fromState
  toState := p.toState
  actor := "system"
  inputHash := ""
  outputHash := ""
  modelVersion := p.modelVersion
  agentVersion := p.agentVersion
  policyVersion := p.policyVersion
  metadataJson := dumps p.metadata
  proofJson := dumps p.json
  schemaVersion := p.type.getD "zorynex-proof-v1"
  version := 1
  timestamp := p.timestamp

end ProofDict

/-- `append_ledger_entry`; `now` is the clock that `_ensure_instance` reads. -/
def Db.appendLedgerEntry (db : Db) (now : String) (p : ProofDict) : Except PyErr ℤ × Db :=
  match p.checkSignature with
  | .error e => (.error e, db)
  | .ok _ =>
    match validateChainIntegrity db.ledger p.instanceId p.sequenceId p.previousHash p.tenant with
    | .error e => (.error e, db)
    | .ok _ =>
      match insertLedger db.ledger p.row with
      | .error e => (.error e, db)  -- `rollback`, which takes the instance row back too
      | .ok ledger =>
        (.ok p.sequenceId,
          { db with
            ledger := ledger
            instances := ensureInstance db.instances p.instanceId p.policyVersion p.toState p.tenant now })

/-! ### Governance and lifecycle -/

/-- `INSERT OR REPLACE` of a version: the row with its key goes, the new one is
last. -/
def replaceVersion (rows : List ApprovedVersion) (row : ApprovedVersion) : List ApprovedVersion :=
  rows.filter (fun r => r.version ≠ row.version) ++ [row]

namespace Db

/-- `add_approved_model`. -/
def addApprovedModel (db : Db) (now modelVersion modelName : String) : Db :=
  { db with
    approvedModels := replaceVersion db.approvedModels
      ⟨modelVersion, if modelName = "" then modelVersion else modelName, now⟩ }

/-- `add_approved_agent`. -/
def addApprovedAgent (db : Db) (now agentVersion agentName : String) : Db :=
  { db with
    approvedAgents := replaceVersion db.approvedAgents
      ⟨agentVersion, if agentName = "" then agentVersion else agentName, now⟩ }

/-- The key `add_approved_policy` stores a policy under. -/
def policyKey (policyVersion policyName : String) : String :=
  if policyName ≠ "" ∧ policyName ≠ policyVersion then policyName ++ ":" ++ policyVersion
  else policyVersion

/-- `add_approved_policy`. -/
def addApprovedPolicy (db : Db) (now policyVersion policyName : String) : Db :=
  let key := policyKey policyVersion policyName
  { db with
    approvedPolicies := db.approvedPolicies.filter (fun r => r.policyVersion ≠ key) ++ [⟨key, true, now⟩] }

/-- `deactivate_policy`. -/
def deactivatePolicy (db : Db) (policyVersion : String) : Db :=
  { db with
    approvedPolicies := db.approvedPolicies.map fun r =>
      if r.policyVersion = policyVersion then { r with active := false } else r }

/-- The versions of `get_approved_models`. -/
def modelVersions (db : Db) : List String := db.approvedModels.map ApprovedVersion.version

/-- The versions of `get_approved_agents`. -/
def agentVersions (db : Db) : List String := db.approvedAgents.map ApprovedVersion.version

/-- The version in a stored policy key: what follows the first colon, the key
itself where there is none. -/
def keyVersion (key : String) : String :=
  match key.toList.dropWhile (· ≠ ':') with
  | [] => key
  | _ :: v => String.ofList v

/-- The versions of `get_approved_policies`. -/
def policyVersions (db : Db) : List String :=
  (db.approvedPolicies.filter ApprovedPolicy.active).map fun r => keyVersion r.policyVersion

/-- `register_protocol`. -/
def registerProtocol (db : Db) (now protocolHash : String) (spec : Json) : Db :=
  if db.protocols.any fun r => r.protocolHash = protocolHash then db
  else { db with protocols := db.protocols ++ [⟨protocolHash, dumps spec, true, now⟩] }

/-- `freeze_instance`. -/
def freezeInstance (db : Db) (instanceId tenantId : String) : Db :=
  { db with
    instances := db.instances.map fun r =>
      if r.instanceId = instanceId ∧ r.tenantId = tenantId then { r with frozen := true } else r }

end Db

/-! ### The ledger is chained -/

open HashChain

/-- What the chain reads of a row. -/
def rowReading : Reading LedgerRow String := ⟨LedgerRow.sequenceId, LedgerRow.previousHash, LedgerRow.currentHash⟩

/-- The rows of each tenant and instance form a hash chain from the genesis hash. -/
def Chained (ledger : List LedgerRow) : Prop :=
  ∀ tenantId instanceId, Linked rowReading genesisHash 1 (rowsOf ledger tenantId instanceId)

theorem Chained.nil : Chained [] := fun _ _ => trivial

@[simp] theorem rowsOf_append (l m : List LedgerRow) (t i : String) :
    rowsOf (l ++ m) t i = rowsOf l t i ++ rowsOf m t i := List.filter_append ..

@[simp] theorem rowsOf_self (r : LedgerRow) : rowsOf [r] r.tenantId r.instanceId = [r] := by
  simp [rowsOf]

theorem rowsOf_other {r : LedgerRow} {t i : String} (h : ¬ (r.tenantId = t ∧ r.instanceId = i)) :
    rowsOf [r] t i = [] := by
  simp [rowsOf, h]

theorem mem_rowsOf {l : List LedgerRow} {t i : String} {r : LedgerRow} :
    r ∈ rowsOf l t i ↔ r ∈ l ∧ r.tenantId = t ∧ r.instanceId = i := by simp [rowsOf]

/-- Every prefix of a chained ledger is chained. -/
theorem Chained.of_prefix {l m : List LedgerRow} (h : Chained m) (hp : l <+: m) : Chained l := by
  obtain ⟨k, rfl⟩ := hp
  intro t i
  have := h t i
  rw [rowsOf_append, linked_append] at this
  exact this.1

theorem argmax_linked {h : String} {n : ℤ} {rows : List LedgerRow} (hl : Linked rowReading h n rows) :
    @List.argmax _ _ Int.instLinearOrder.toPreorder Int.decLt LedgerRow.sequenceId rows = rows.getLast? := by
  induction rows using List.reverseRecOn with
  | nil => rfl
  | append_singleton rows r ih =>
    obtain ⟨hrows, -, hr⟩ := Linked.concat.1 hl
    rw [List.argmax_concat, ih hrows, List.getLast?_concat]
    cases hlast : rows.getLast? with
    | none => rfl
    | some c =>
      -- the numbers ascend, so the last row has the largest
      obtain ⟨k, hk, hc⟩ := List.getElem_of_mem (List.mem_of_getLast? hlast)
      have hck := hrows.seq_get (List.getElem?_eq_some_iff.2 ⟨hk, hc⟩)
      have hr : r.sequenceId = n + rows.length := hr
      have hck : c.sequenceId = n + k := hck
      have hlt : c.sequenceId < r.sequenceId := by omega
      simp [hlt]

/-- In a chained ledger the row with the largest number is the last one. -/
theorem lastRow_eq {l : List LedgerRow} (h : Chained l) (t i : String) :
    lastRow l t i = (rowsOf l t i).getLast? := argmax_linked (h t i)

theorem maxSequenceId_eq {l : List LedgerRow} (h : Chained l) (t i : String) :
    maxSequenceId l t i = (rowsOf l t i).length := by
  rw [maxSequenceId, lastRow_eq h]
  have hl := h t i
  obtain hnil | ⟨rows, r, hrows⟩ := List.eq_nil_or_concat (rowsOf l t i)
  · simp [hnil]
  · rw [hrows, List.concat_eq_append] at hl ⊢
    rw [List.getLast?_concat]
    exact hl.seq_last

/-- In a chained ledger `ORDER BY sequence_id` is the order of insertion. -/
theorem Db.getLedgerChain_eq {db : Db} (h : Chained db.ledger) (i t : String) :
    db.getLedgerChain i t = rowsOf db.ledger t i := by
  refine List.Pairwise.insertionSort_eq (r := fun a b : LedgerRow => a.sequenceId ≤ b.sequenceId) ?_
  refine List.pairwise_iff_getElem.2 fun a b ha hb hab => ?_
  have h₁ := (h t i).seq_get (List.getElem?_eq_getElem ha)
  have h₂ := (h t i).seq_get (List.getElem?_eq_getElem hb)
  have h₁ : (rowsOf db.ledger t i)[a].sequenceId = 1 + a := h₁
  have h₂ : (rowsOf db.ledger t i)[b].sequenceId = 1 + b := h₂
  omega

/-- **The check before the insert**, on a chained ledger: the row carries the
next number and the last hash. -/
theorem checkLink_ok_iff {l : List LedgerRow} (h : Chained l) {i t prev : String} {n : ℤ} :
    checkLink l i n prev t = .ok () ↔
      n = (rowsOf l t i).length + 1 ∧ prev = tip rowReading genesisHash (rowsOf l t i) := by
  rw [checkLink, maxSequenceId_eq h, lastRow_eq h]
  have htip : ((rowsOf l t i).getLast?.map LedgerRow.currentHash).getD genesisHash =
      tip rowReading genesisHash (rowsOf l t i) := rfl
  simp only [htip]
  split_ifs with h₁ h₂ h₃
  · simp; omega
  · simp; omega
  · simp [h₃]
  · simp only [true_iff]
    exact ⟨by omega, not_not.1 h₃⟩

theorem insertLedger_ok_iff {l l' : List LedgerRow} {r : LedgerRow} :
    insertLedger l r = .ok l' ↔ Admissible l r ∧ l' = l ++ [r] := by
  rw [insertLedger]
  split_ifs with h
  · simp [h, eq_comm]
  · simp [h]

/-- The conditions under which `append_ledger_entry` returns. -/
def Db.Appendable (db : Db) (p : ProofDict) : Prop :=
  p.signatureValue.length = 128 ∧
    validateChainIntegrity db.ledger p.instanceId p.sequenceId p.previousHash p.tenant = .ok () ∧
    Admissible db.ledger p.row

/-- The database after `append_ledger_entry` returned. -/
def Db.appended (db : Db) (now : String) (p : ProofDict) : Db :=
  { db with
    ledger := db.ledger ++ [p.row]
    instances := ensureInstance db.instances p.instanceId p.policyVersion p.toState p.tenant now }

theorem Db.appendLedgerEntry_of_appendable {db : Db} {p : ProofDict} (now : String) (h : db.Appendable p) :
    db.appendLedgerEntry now p = (.ok p.sequenceId, db.appended now p) := by
  obtain ⟨hs, hv, ha⟩ := h
  simp only [appendLedgerEntry, ProofDict.checkSignature, if_pos hs, hv, insertLedger, if_pos ha, appended]

/-- **All or nothing**: where `append_ledger_entry` raises, the tables are as
before. -/
theorem Db.appendLedgerEntry_of_not {db : Db} {p : ProofDict} (now : String) (h : ¬ db.Appendable p) :
    ∃ e, db.appendLedgerEntry now p = (.error e, db) := by
  rw [appendLedgerEntry]
  cases hs : p.checkSignature with
  | error e => exact ⟨e, rfl⟩
  | ok _ =>
    cases hv : validateChainIntegrity db.ledger p.instanceId p.sequenceId p.previousHash p.tenant with
    | error e => exact ⟨e, rfl⟩
    | ok _ =>
      have hlen : p.signatureValue.length = 128 := by
        by_contra hne
        simp [ProofDict.checkSignature, hne] at hs
      have ha : ¬ Admissible db.ledger p.row := fun ha => h ⟨hlen, hv, ha⟩
      exact ⟨.integrityError, by simp [insertLedger, ha]⟩

/-- The ledger stays chained under a row that was checked against a prefix of it
that held as many rows of the instance. -/
theorem Chained.concat {l : List LedgerRow} (h : Chained l) {r : LedgerRow}
    (hs : r.sequenceId = (rowsOf l r.tenantId r.instanceId).length + 1)
    (hp : r.previousHash = tip rowReading genesisHash (rowsOf l r.tenantId r.instanceId)) :
    Chained (l ++ [r]) := by
  intro t i
  by_cases hti : r.tenantId = t ∧ r.instanceId = i
  · obtain ⟨rfl, rfl⟩ := hti
    rw [rowsOf_append, rowsOf_self]
    refine Linked.concat.2 ⟨h _ _, hp, ?_⟩
    have : r.sequenceId = 1 + (rowsOf l r.tenantId r.instanceId).length := by omega
    exact this
  · rw [rowsOf_append, rowsOf_other hti, List.append_nil]
    exact h t i

/-- **The unique index makes the check hold at the insert.**  A row that was
checked against a prefix of the ledger and passes the unique index of the whole
ledger was checked against all the rows of its instance. -/
theorem rowsOf_eq_of_unique {l m : List LedgerRow} (h : Chained m) (hp : l <+: m) {t i : String} {n : ℤ}
    (hn : n = (rowsOf l t i).length + 1) (hu : ∀ s ∈ rowsOf m t i, s.sequenceId ≠ n) :
    rowsOf l t i = rowsOf m t i := by
  obtain ⟨k, rfl⟩ := hp
  rw [rowsOf_append] at hu ⊢
  cases hk : rowsOf k t i with
  | nil => simp
  | cons r rest =>
    -- the first row after the prefix would carry the number
    have hl := h t i
    rw [rowsOf_append, hk] at hl
    have hr : r.sequenceId = 1 + (rowsOf l t i).length := hl.seq_get (by simp)
    exact absurd (by omega) (hu r (by simp [hk]))

end ProvableAi
