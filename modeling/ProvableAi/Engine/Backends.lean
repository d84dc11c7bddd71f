/-
# One engine over two storages

`PostgreSQLHardenedStorage` "implements the same public interface as
SQLiteStorage".  A run of calls — approvals, `record_decision` and direct
`append_ledger_entry` — is made on a fresh storage of either class; one client,
no faults.

The engine reads of its storage the approved versions and, in
`_get_previous_hash_and_sequence`, the latest entry of an instance: `draftIn` is
the part of `record_decision` that depends on nothing else.  SQLite returns the
row of that entry, PostgreSQL the proof stored in it, which has neither
`current_hash` nor `sequence_id` at its top: the second decision on an instance
raises `KeyError`.

`backends_agree` says under which calls the two classes do agree
(`Call.Portable`), call by call and row by row, along every run.
-/

import ProvableAi.Engine.Frozen
import ProvableAi.Storage.Postgres
import ProvableAi.Lib.Lockstep

namespace ProvableAi

/-! ### `record_decision` over any storage -/

/-- The versions that the `get_approved_*` methods return. -/
structure Approvals where
  models : List String
  agents : List String
  policies : List String

/-- What SQLite returns. -/
def Db.approvals (db : Db) : Approvals := ⟨db.modelVersions, db.agentVersions, db.policyVersions⟩

/-- What PostgreSQL returns. -/
def Postgres.Db.approvals (db : Postgres.Db) : Approvals :=
  ⟨db.approvedModels, db.approvedAgents, db.policyVersions⟩

/-- `_validate_governance`. -/
def Approvals.validateGovernance (g : Approvals) (modelVersion agentVersion policyVersion : String) :
    Except PyErr Unit :=
  if modelVersion ∉ g.models then .error (.unauthorizedModelVersion modelVersion g.models)
  else if agentVersion ∉ g.agents then
    .error (.agentVersionMismatch agentVersion (g.agents.head?.getD "(none)"))
  else if policyVersion ∉ g.policies then
    .error (.policyViolation policyVersion ("policy '" ++ policyVersion ++ "' is not active"))
  else .ok ()

/-- Steps 1 to 5 of `record_decision`, where `link` is what
`_get_previous_hash_and_sequence` returns. -/
def draftIn (g : Approvals) (link : Except PyErr (String × ℤ)) (a : DecisionArgs) : Except PyErr Draft := do
  g.validateGovernance a.modelVersion a.agentVersion a.policyVersion
  let metadata ← validateMetadata (a.metadata.getD [])
  validateDeterminism a.determinismMode a.randomSeed a.externalCalls
  let link ← link
  let decision ← validated (Decision.make a.fromState a.toState)
  let inputsHash ← hashRaw a.rawInputs
  let decisionContext ← validated (DecisionContext.make a.reasonCode a.policyRule a.modelVersion inputsHash
    (a.featureContributions.getD []) a.thresholdUsed metadata)
  let governance ← validated (Governance.make a.modelVersion a.agentVersion a.policyVersion)
  let externalCallsHash ← extCallsHash a.determinismMode a.externalCalls
  let determinism ← validated (Determinism.make a.determinismMode a.randomSeed externalCallsHash)
  pure ⟨decision, decisionContext, governance, determinism, link.1, link.2⟩

/-- The engine over SQLite. -/
theorem draft_eq_draftIn (db : Db) (a : DecisionArgs) :
    draft db a = draftIn db.approvals (getPreviousHashAndSequence db a.instanceId) a := rfl

namespace Postgres

/-- `entry[key]`. -/
def subscript (entry : Json) (key : String) : Except PyErr Json :=
  match entry with
  | .obj kvs =>
    match kvs.lookup key with
    | some v => .ok v
    | none => .error (.keyError key)
  | _ => .error .typeError

/-- `_get_previous_hash_and_sequence`; a stored proof that has the two keys is taken
to have a text and an integer there. -/
def getPreviousHashAndSequence (db : Db) (instanceId : String) : Except PyErr (String × ℤ) := do
  match ← db.getLatestLedgerEntry instanceId defaultTenant with
  | none => .ok (genesisHash, 1)
  | some entry =>
    let previousHash ← subscript entry "current_hash"
    let lastSequenceId ← subscript entry "sequence_id"
    match previousHash, lastSequenceId with
    | .str h, .int n =>
      if isValidHash h then .ok (h, n + 1) else .error (.chainBroken (n + 1) "(valid 64-char hex)" h)
    | _, _ => .error .typeError

/-- The proof that `record_decision` builds. -/
def buildProof (db : Db) (signer : Signer) (env : CallEnv) (a : DecisionArgs) : Except PyErr ProofV1 := do
  let d ← draftIn db.approvals (getPreviousHashAndSequence db a.instanceId) a
  d.sign signer env a.instanceId

/-- `record_decision`. -/
def recordDecision (db : Db) (signer : Signer) (env : CallEnv) (a : DecisionArgs) :
    Except PyErr ProofV1 × Db :=
  match buildProof db signer env a with
  | .error e => (.error e, db)
  | .ok p =>
    match db.appendLedgerEntry p.toDict with
    | (.error e, db) => (.error e, db)
    | (.ok _, db) => (.ok p, db)

end Postgres

/-! ### Runs -/

namespace Backends

/-- An approval, in the form that both classes take. -/
inductive Approval where
  | addModel (version : String)
  | addAgent (version : String)
  | addPolicy (version : String)
  | deactivatePolicy (version : String)

/-- The version that is approved or not. -/
def Approval.version : Approval → String
  | addModel v | addAgent v | addPolicy v | deactivatePolicy v => v

/-- A call on the engine or on its storage. -/
inductive Call where
  | approve (now : String) (a : Approval)
  | record (env : CallEnv) (args : DecisionArgs)
  | append (now : String) (p : ProofDict)

/-- What a call returned or raised. -/
inductive Result where
  | done
  | proof (p : ProofV1)
  | sequence (n : ℤ)
  | raised (e : PyErr)

/-- The same value returned, or an exception of the same class raised. -/
def Result.Same : Result → Result → Prop
  | .raised e, .raised f => e.className = f.className
  | r, s => r = s

/-- An approval on SQLite. -/
def approveSqlite (db : Db) (now : String) : Approval → Db
  | .addModel v => db.addApprovedModel now v ""
  | .addAgent v => db.addApprovedAgent now v ""
  | .addPolicy v => db.addApprovedPolicy now v ""
  | .deactivatePolicy v => db.deactivatePolicy v

/-- An approval on PostgreSQL, its version bound. -/
def approvePostgres (db : Postgres.Db) : Approval → Postgres.Db
  | .addModel v => { db with approvedModels := Postgres.insertVersion db.approvedModels v }
  | .addAgent v => { db with approvedAgents := Postgres.insertVersion db.approvedAgents v }
  | .addPolicy v => { db with approvedPolicies := Postgres.upsertPolicy db.approvedPolicies v }
  | .deactivatePolicy v => { db with approvedPolicies := Postgres.clearPolicy db.approvedPolicies v }

variable (signer : Signer)

/-- One call over `SQLiteStorage`. -/
def sqlite (db : Db) : Call → Result × Db
  | .approve now a => (.done, approveSqlite db now a)
  | .record env a =>
    match recordDecision db signer env a with
    | (.ok p, db) => (.proof p, db)
    | (.error e, db) => (.raised e, db)
  | .append now p =>
    match db.appendLedgerEntry now p with
    | (.ok n, db) => (.sequence n, db)
    | (.error e, db) => (.raised e, db)

/-- One call over `PostgreSQLHardenedStorage`. -/
def postgres (db : Postgres.Db) : Call → Result × Postgres.Db
  | .approve _ a =>
    match Postgres.bindTexts [a.version] with
    | .error e => (.raised e, db)
    | .ok _ => (.done, approvePostgres db a)
  | .record env a =>
    match Postgres.recordDecision db signer env a with
    | (.ok p, db) => (.proof p, db)
    | (.error e, db) => (.raised e, db)
  | .append _ p =>
    match db.appendLedgerEntry p with
    | (.ok n, db) => (.sequence n, db)
    | (.error e, db) => (.raised e, db)

/-- What is compared of a ledger row. -/
structure Entry where
  tenantId : String
  instanceId : String
  sequenceId : ℤ
  previousHash : String
  currentHash : String
  proofJson : String
  deriving DecidableEq

/-- The compared part of a row. -/
def entry (r : LedgerRow) : Entry :=
  ⟨r.tenantId, r.instanceId, r.sequenceId, r.previousHash, r.currentHash, r.proofJson⟩

/-- The two classes agree on a run: call by call the same value or exception class,
and the same rows at the end. -/
def Agree (calls : List Call) : Prop :=
  List.Forall₂ (fun x y => x.1 = y.1 ∧ x.2.Same y.2) (Lockstep.outputs (sqlite signer) (fun _ => true) .fresh calls)
      (Lockstep.outputs (postgres signer) (fun _ => true) .fresh calls) ∧
    (Lockstep.final (sqlite signer) .fresh calls).ledger.map entry =
      (Lockstep.final (postgres signer) .fresh calls).ledger.map entry

/-! ### The calls on which they agree -/

/-- The active policies as they are stored: SQLite returns of a stored policy only
what follows its first colon. -/
def policyKeys (db : Db) : List String :=
  (db.approvedPolicies.filter ApprovedPolicy.active).map ApprovedPolicy.policyVersion

/-- The call passes the checks of `record_decision` before the ledger is read. -/
structure ReachesLedger (db : Db) (a : DecisionArgs) : Prop where
  governance : validateGovernance db a.modelVersion a.agentVersion a.policyVersion = .ok ()
  metadata : ∃ md, validateMetadata (a.metadata.getD []) = .ok md
  determinism : validateDeterminism a.determinismMode a.randomSeed a.externalCalls = .ok ()

/-- The texts of a decision that become parameters of a statement. -/
def boundTexts (signer : Signer) (env : CallEnv) (a : DecisionArgs) : List String :=
  [a.fromState, a.toState, a.modelVersion, a.agentVersion, a.policyVersion, signer.keyId, env.now.text]

/-- A decision on which the two classes agree: it is the first one of its instance,
or it is refused before that matters. -/
structure PortableDecision (signer : Signer) (db : Db) (env : CallEnv) (a : DecisionArgs) : Prop where
  policy : a.modelVersion ∈ db.modelVersions → a.agentVersion ∈ db.agentVersions →
    (a.policyVersion ∈ db.policyVersions ↔ a.policyVersion ∈ policyKeys db)
  first : ReachesLedger db a → rowsOf db.ledger defaultTenant a.instanceId = []
  instanceId : ReachesLedger db a → Postgres.quotable a.instanceId = true
  tenant : Recordable db a → env.signFault = none → ∀ r ∈ db.ledger, r.instanceId ≠ a.instanceId
  texts : Recordable db a → env.signFault = none → ∀ s ∈ boundTexts signer env a, Postgres.quotable s = true

/-- An entry on which the two classes agree: it is the next link of its chain, of
the lengths the tables ask for, and PostgreSQL can hold it. -/
structure PortableEntry (db : Db) (p : ProofDict) : Prop where
  appendable : db.Appendable p
  texts : ∀ s ∈ Postgres.insertTexts p, Postgres.quotable s = true
  sequenceId : Postgres.fitsInteger p.sequenceId = true

/-- The calls on which the two classes agree, in the state they find. -/
def Call.Portable (signer : Signer) (db : Db) : Call → Prop
  | .approve _ a => Postgres.quotable a.version = true
  | .record env a => PortableDecision signer db env a
  | .append _ p => PortableEntry db p

/-! ### The two databases, related -/

/-- Same rows, as far as they are compared, and same approvals. -/
structure Rel (db : Db) (pg : Postgres.Db) : Prop where
  rows : db.ledger.map entry = pg.ledger.map entry
  models : ∀ v, v ∈ db.modelVersions ↔ v ∈ pg.approvedModels
  agents : ∀ v, v ∈ db.agentVersions ↔ v ∈ pg.approvedAgents
  policies : ∀ v, v ∈ policyKeys db ↔ v ∈ pg.policyVersions

theorem Rel.fresh : Rel .fresh .fresh := ⟨rfl, fun _ => Iff.rfl, fun _ => Iff.rfl, fun _ => Iff.rfl⟩

theorem rowsOf_entry (l : List LedgerRow) (t i : String) :
    (rowsOf l t i).map entry = (l.map entry).filter fun e => e.tenantId = t ∧ e.instanceId = i := by
  rw [List.filter_map]
  rfl

/-- The last row, as far as it is compared, depends on no more than that. -/
theorem argmax_entry (rows : List LedgerRow) :
    (@List.argmax _ _ Int.instLinearOrder.toPreorder Int.decLt LedgerRow.sequenceId rows).map entry =
      @List.argmax _ _ Int.instLinearOrder.toPreorder Int.decLt Entry.sequenceId (rows.map entry) := by
  induction rows using List.reverseRecOn with
  | nil => rfl
  | append_singleton rows r ih =>
    rw [List.map_append, List.map_singleton, List.argmax_concat, List.argmax_concat, ← ih]
    cases @List.argmax _ _ Int.instLinearOrder.toPreorder Int.decLt LedgerRow.sequenceId rows with
    | none => rfl
    | some c =>
      simp only [Option.map_some]
      have hc : (entry c).sequenceId = c.sequenceId := rfl
      have hr : (entry r).sequenceId = r.sequenceId := rfl
      rw [hc, hr]
      split_ifs <;> rfl

section Rel

variable {signer} {db : Db} {pg : Postgres.Db}

theorem Rel.rowsOf (h : Rel db pg) (t i : String) :
    (ProvableAi.rowsOf db.ledger t i).map entry = (ProvableAi.rowsOf pg.ledger t i).map entry := by
  rw [rowsOf_entry, rowsOf_entry, h.rows]

theorem Rel.lastRow (h : Rel db pg) (t i : String) :
    (ProvableAi.lastRow db.ledger t i).map entry = (ProvableAi.lastRow pg.ledger t i).map entry := by
  rw [ProvableAi.lastRow, ProvableAi.lastRow, argmax_entry, argmax_entry, h.rowsOf]

/-- A row is added on both sides. -/
theorem Rel.append (h : Rel db pg) {db' : Db} {pg' : Postgres.Db} {r r' : LedgerRow}
    (hdb : db' = { db with ledger := db.ledger ++ [r], instances := db'.instances })
    (hpg : pg' = { pg with ledger := pg.ledger ++ [r'], instances := pg'.instances })
    (hr : entry r = entry r') : Rel db' pg' := by
  rw [hdb, hpg]
  refine ⟨?_, h.models, h.agents, h.policies⟩
  rw [List.map_append, List.map_append, h.rows, List.map_singleton, List.map_singleton, hr]

/-! Approvals -/

theorem mem_replaceVersion {rows : List ApprovedVersion} {row : ApprovedVersion} {v : String} :
    v ∈ (replaceVersion rows row).map ApprovedVersion.version ↔
      v = row.version ∨ v ∈ rows.map ApprovedVersion.version := by
  simp only [replaceVersion, List.map_append, List.map_singleton, List.mem_append, List.mem_singleton,
    List.mem_map, List.mem_filter, decide_eq_true_eq]
  constructor
  · rintro (⟨r, ⟨hr, -⟩, rfl⟩ | rfl)
    · exact .inr ⟨r, hr, rfl⟩
    · exact .inl rfl
  · rintro (rfl | ⟨r, hr, rfl⟩)
    · exact .inr rfl
    · by_cases hv : r.version = row.version
      · exact .inr hv
      · exact .inl ⟨r, ⟨hr, hv⟩, rfl⟩

theorem mem_insertVersion {versions : List String} {v w : String} :
    w ∈ Postgres.insertVersion versions v ↔ w = v ∨ w ∈ versions := by
  rw [Postgres.insertVersion]
  split_ifs with h
  · exact ⟨.inr, fun hw => hw.elim (fun e => e ▸ h) id⟩
  · rw [List.mem_append, List.mem_singleton, or_comm]

theorem mem_policyKeys {db : Db} {v : String} :
    v ∈ policyKeys db ↔ ∃ r ∈ db.approvedPolicies, r.active = true ∧ r.policyVersion = v := by
  simp [policyKeys, and_assoc]

theorem mem_policyVersions {pg : Postgres.Db} {v : String} : v ∈ pg.policyVersions ↔ (v, true) ∈ pg.approvedPolicies := by
  simp [Postgres.Db.policyVersions]

theorem mem_upsertPolicy {policies : List (String × Bool)} {v w : String} :
    (w, true) ∈ Postgres.upsertPolicy policies v ↔ w = v ∨ (w, true) ∈ policies := by
  rw [Postgres.upsertPolicy]
  split_ifs with h
  · obtain ⟨r, hr, hrv⟩ := List.any_eq_true.1 h
    have hrv : r.1 = v := of_decide_eq_true hrv
    rw [List.mem_map]
    constructor
    · rintro ⟨x, hx, hxw⟩
      split_ifs at hxw with hxv
      · exact .inl ((Prod.mk.inj hxw).1.symm.trans hxv)
      · exact .inr (hxw ▸ hx)
    · rintro (rfl | hw)
      · exact ⟨r, hr, by rw [if_pos hrv, hrv]⟩
      · by_cases hwv : w = v
        · exact ⟨(w, true), hw, by rw [if_pos hwv]⟩
        · exact ⟨(w, true), hw, if_neg hwv⟩
  · rw [List.mem_append, List.mem_singleton, Prod.mk.injEq, or_comm]
    simp

theorem mem_clearPolicy {policies : List (String × Bool)} {v w : String} :
    (w, true) ∈ Postgres.clearPolicy policies v ↔ w ≠ v ∧ (w, true) ∈ policies := by
  rw [Postgres.clearPolicy, List.mem_map]
  constructor
  · rintro ⟨x, hx, hxw⟩
    split_ifs at hxw with hxv
    · cases hxw
    · subst hxw
      exact ⟨hxv, hx⟩
  · rintro ⟨hwv, hw⟩
    exact ⟨(w, true), hw, if_neg hwv⟩

theorem policyKeys_add {db : Db} {now v w : String} :
    w ∈ policyKeys (db.addApprovedPolicy now v "") ↔ w = v ∨ w ∈ policyKeys db := by
  have hkey : Db.policyKey v "" = v := by simp [Db.policyKey]
  simp only [mem_policyKeys, Db.addApprovedPolicy, hkey, List.mem_append, List.mem_singleton, List.mem_filter,
    decide_eq_true_eq]
  constructor
  · rintro ⟨r, ⟨hr, -⟩ | rfl, ha, rfl⟩
    · exact .inr ⟨r, hr, ha, rfl⟩
    · exact .inl rfl
  · rintro (rfl | ⟨r, hr, ha, rfl⟩)
    · exact ⟨_, .inr rfl, rfl, rfl⟩
    · by_cases hv : r.policyVersion = v
      · exact ⟨_, .inr rfl, rfl, hv.symm⟩
      · exact ⟨r, .inl ⟨hr, hv⟩, ha, rfl⟩

theorem policyKeys_deactivate {db : Db} {v w : String} :
    w ∈ policyKeys (db.deactivatePolicy v) ↔ w ≠ v ∧ w ∈ policyKeys db := by
  simp only [mem_policyKeys, Db.deactivatePolicy, List.mem_map]
  constructor
  · rintro ⟨_, ⟨r, hr, rfl⟩, ha, hw⟩
    split_ifs at ha hw with hv
    · subst hw
      exact ⟨hv, r, hr, ha, rfl⟩
  · rintro ⟨hne, r, hr, ha, rfl⟩
    exact ⟨r, ⟨r, hr, if_neg hne⟩, ha, rfl⟩

/-- **Approvals keep the relation.** -/
theorem Rel.approve (h : Rel db pg) (now : String) (a : Approval) :
    Rel (approveSqlite db now a) (approvePostgres pg a) := by
  cases a with
  | addModel v =>
    refine ⟨h.rows, fun w => ?_, h.agents, h.policies⟩
    exact mem_replaceVersion.trans ((or_congr Iff.rfl (h.models w)).trans mem_insertVersion.symm)
  | addAgent v =>
    refine ⟨h.rows, h.models, fun w => ?_, h.policies⟩
    exact mem_replaceVersion.trans ((or_congr Iff.rfl (h.agents w)).trans mem_insertVersion.symm)
  | addPolicy v =>
    refine ⟨h.rows, h.models, h.agents, fun w => ?_⟩
    rw [approveSqlite, approvePostgres, policyKeys_add, mem_policyVersions, mem_upsertPolicy, h.policies,
      mem_policyVersions]
  | deactivatePolicy v =>
    refine ⟨h.rows, h.models, h.agents, fun w => ?_⟩
    rw [approveSqlite, approvePostgres, policyKeys_deactivate, mem_policyVersions, mem_clearPolicy, h.policies,
      mem_policyVersions]

/-! A decision -/

theorem quotable_toHex (bs : Bytes) : Postgres.quotable (toHex bs) = true := by
  have hne : Char.ofNat 0 ∉ (toHex bs).toList := fun hc =>
    absurd (List.all_eq_true.1 (toHex_lower bs) _ hc) (by decide)
  simpa [Postgres.quotable] using hne

/-- Governance is checked alike where the versions of the call are listed alike:
both lists pass, or both refuse by the same class. -/
theorem Approvals.agree (g g' : Approvals) {m v p : String} (hm : m ∈ g.models ↔ m ∈ g'.models)
    (hv : v ∈ g.agents ↔ v ∈ g'.agents)
    (hp : m ∈ g.models → v ∈ g.agents → (p ∈ g.policies ↔ p ∈ g'.policies)) :
    (g.validateGovernance m v p = .ok () ∧ g'.validateGovernance m v p = .ok ()) ∨
      ∃ e f, g.validateGovernance m v p = .error e ∧ g'.validateGovernance m v p = .error f ∧
        e.className = f.className := by
  rw [Approvals.validateGovernance, Approvals.validateGovernance]
  by_cases hm₁ : m ∈ g.models
  · rw [if_neg (not_not.2 hm₁), if_neg (not_not.2 (hm.1 hm₁))]
    by_cases hv₁ : v ∈ g.agents
    · rw [if_neg (not_not.2 hv₁), if_neg (not_not.2 (hv.1 hv₁))]
      by_cases hp₁ : p ∈ g.policies
      · rw [if_neg (not_not.2 hp₁), if_neg (not_not.2 ((hp hm₁ hv₁).1 hp₁))]
        exact .inl ⟨rfl, rfl⟩
      · rw [if_pos hp₁, if_pos fun h => hp₁ ((hp hm₁ hv₁).2 h)]
        exact .inr ⟨_, _, rfl, rfl, rfl⟩
    · rw [if_pos hv₁, if_pos fun h => hv₁ (hv.2 h)]
      exact .inr ⟨_, _, rfl, rfl, rfl⟩
  · rw [if_pos hm₁, if_pos fun h => hm₁ (hm.2 h)]
    exact .inr ⟨_, _, rfl, rfl, rfl⟩

/-- An instance without a row: both engines start its chain. -/
theorem Rel.first_link (h : Rel db pg) {i : String} (hrows : ProvableAi.rowsOf db.ledger defaultTenant i = [])
    (hi : Postgres.quotable i = true) :
    ProvableAi.getPreviousHashAndSequence db i = .ok (genesisHash, 1) ∧
      Postgres.getPreviousHashAndSequence pg i = .ok (genesisHash, 1) := by
  have hlast : ProvableAi.lastRow db.ledger defaultTenant i = none := by rw [ProvableAi.lastRow, hrows]; rfl
  have hlast' : ProvableAi.lastRow pg.ledger defaultTenant i = none := by
    have := h.lastRow defaultTenant i
    rw [hlast] at this
    exact Option.map_eq_none_iff.1 this.symm
  have hbind : Postgres.bindTexts [defaultTenant, i] = .ok () :=
    Postgres.bindTexts_eq_ok.2 fun s hs => by
      rcases List.mem_pair.1 hs with rfl | rfl
      · decide
      · exact hi
  constructor
  · rw [ProvableAi.getPreviousHashAndSequence, Db.getLatestLedgerEntry, hlast]
  · rw [Postgres.getPreviousHashAndSequence, Postgres.Db.getLatestLedgerEntry, hbind, hlast']
    rfl

/-- **The proofs that are built.**  Of a portable decision both engines build the
same proof or raise the same class. -/
theorem Rel.buildProof (h : Rel db pg) {env : CallEnv} {a : DecisionArgs} (hp : PortableDecision signer db env a) :
    ProvableAi.buildProof db signer env a = Postgres.buildProof pg signer env a ∨
      ∃ e f, ProvableAi.buildProof db signer env a = .error e ∧ Postgres.buildProof pg signer env a = .error f ∧
        e.className = f.className := by
  rw [ProvableAi.buildProof, Postgres.buildProof, draft_eq_draftIn]
  have hgov := Approvals.agree db.approvals pg.approvals (p := a.policyVersion) (h.models a.modelVersion)
    (h.agents a.agentVersion)
    fun hm hv => (hp.policy hm hv).trans (h.policies a.policyVersion)
  rcases hgov with ⟨hg, hg'⟩ | ⟨e, f, hg, hg', hef⟩
  · refine .inl (congrArg (fun x : Except PyErr Draft => x >>= fun d => d.sign signer env a.instanceId) ?_)
    rw [draftIn, draftIn, hg, hg', ok_bind, ok_bind]
    -- what is checked before the ledger is read does not depend on the storage
    cases hmd : validateMetadata (a.metadata.getD []) with
    | error e => rfl
    | ok md =>
      rw [ok_bind, ok_bind]
      cases hdet : validateDeterminism a.determinismMode a.randomSeed a.externalCalls with
      | error e => rfl
      | ok u =>
        have hreach : ReachesLedger db a := ⟨hg, ⟨md, hmd⟩, hdet⟩
        obtain ⟨hl, hl'⟩ := h.first_link (hp.first hreach) (hp.instanceId hreach)
        rw [hl, hl']
  · refine .inr ⟨e, f, ?_, ?_, hef⟩
    · rw [draftIn, hg]; rfl
    · rw [draftIn, hg']; rfl

/-- What holds of the proof of a portable decision: it is the first of its chain,
and its texts are those of the call. -/
structure FirstProof (signer : Signer) (env : CallEnv) (a : DecisionArgs) (p : ProofV1) : Prop where
  built : Built signer a p
  previousHash : p.ledger.previousHash.text = genesisHash
  sequenceId : p.ledger.sequenceId = 1
  timestamp : p.ledger.timestamp = env.now.text
  keyId : p.signature.keyId = signer.keyId

theorem buildProof_first {env : CallEnv} {a : DecisionArgs} (hp : PortableDecision signer db env a) {p : ProofV1}
    (h : ProvableAi.buildProof db signer env a = .ok p) :
    FirstProof signer env a p ∧ ReachesLedger db a ∧ Recordable db a ∧ env.signFault = none := by
  obtain ⟨d, hd, hsign⟩ := bind_eq_ok_iff.1 h
  have hreach : ReachesLedger db a := by
    have hd' := hd
    simp only [draft, bind_eq_ok_iff] at hd'
    obtain ⟨⟨⟩, hg, md, hmd, ⟨⟩, hdet, -⟩ := hd'
    exact ⟨hg, ⟨md, hmd⟩, hdet⟩
  -- the same proof is built over a ledger without rows
  have hrows := hp.first hreach
  have hlink : ProvableAi.getPreviousHashAndSequence db a.instanceId =
      ProvableAi.getPreviousHashAndSequence { db with ledger := [] } a.instanceId := by
    rw [ProvableAi.getPreviousHashAndSequence, Db.getLatestLedgerEntry, ProvableAi.lastRow, hrows]
    rfl
  have hempty : ProvableAi.buildProof { db with ledger := [] } signer env a = .ok p := by
    rw [← h, ProvableAi.buildProof, ProvableAi.buildProof, draft_eq_draftIn, draft_eq_draftIn, hlink]
    rfl
  have hhex : HexRows ({ db with ledger := [] } : Db).ledger := fun r hr => absurd hr List.not_mem_nil
  obtain ⟨hb, hprev, hseq⟩ := buildProof_ok .nil hhex hempty
  obtain ⟨hrec, hfault⟩ := (buildProof_isOk_iff .nil hhex).1 ⟨p, hempty⟩
  obtain ⟨-, -, l, s, hl, hs, hmake⟩ := Draft.sign_eq_ok.1 hsign
  obtain ⟨-, -, -, -, -, rfl, rfl⟩ := ProofV1.make_eq_some.1 hmake
  refine ⟨⟨hb, hprev, hseq, (Ledger.make_eq_some.1 hl).2.2.2, (Signature.make_eq_some.1 hs).1⟩, hreach, ?_, hfault⟩
  exact { hrec with modelVersion := hrec.modelVersion }

/-- The first proof of an instance is appended by SQLite. -/
theorem FirstProof.appendable {env : CallEnv} {a : DecisionArgs} {p : ProofV1} (h : FirstProof signer env a p)
    (hnone : ∀ r ∈ db.ledger, r.instanceId ≠ a.instanceId) : db.Appendable p.toDict := by
  have hi : p.instanceId = a.instanceId := h.built.instanceId
  have hrows : ProvableAi.rowsOf db.ledger defaultTenant p.instanceId = [] :=
    List.filter_eq_nil_iff.2 fun r hr => by simp [hi, hnone r hr]
  have hconflict : checkConflict db.ledger p.instanceId defaultTenant = .ok () := by
    have hfind : db.ledger.find? (fun r => r.instanceId = p.instanceId ∧ r.tenantId ≠ defaultTenant) = none :=
      List.find?_eq_none.2 fun r hr => by simp [hi, hnone r hr]
    rw [checkConflict, hfind]
  -- for the rest, only the rows of the instance count, and there are none
  have happ : ({ db with ledger := [] } : Db).Appendable p.toDict :=
    (h.built.appendable_iff (show Chained ({ db with ledger := [] } : Db).ledger from .nil)
      (fun r hr => absurd hr List.not_mem_nil) h.previousHash h.sequenceId).2 fun r hr => absurd hr List.not_mem_nil
  obtain ⟨hlen, hval, hcur, hsig, hpos, -, -⟩ := happ
  have hlast : ∀ l, ProvableAi.rowsOf l defaultTenant p.instanceId = [] →
      checkLink l p.instanceId p.ledger.sequenceId p.ledger.previousHash.text defaultTenant =
        checkLink [] p.instanceId p.ledger.sequenceId p.ledger.previousHash.text defaultTenant := by
    intro l hl
    rw [checkLink, checkLink, maxSequenceId, maxSequenceId, ProvableAi.lastRow, ProvableAi.lastRow, hl]
    rfl
  have hnorow : ∀ q : LedgerRow → Prop, ∀ r ∈ ProvableAi.rowsOf db.ledger defaultTenant p.instanceId, q r :=
    fun q r hr => absurd (hrows ▸ hr) List.not_mem_nil
  refine ⟨hlen, ?_, hcur, hsig, hpos, hnorow _, hnorow _⟩
  have hval : validateChainIntegrity [] p.instanceId p.ledger.sequenceId p.ledger.previousHash.text
      defaultTenant = .ok () := hval
  have hgoal : validateChainIntegrity db.ledger p.instanceId p.ledger.sequenceId p.ledger.previousHash.text
      defaultTenant = .ok () := by
    rw [validateChainIntegrity, hconflict]
    rw [validateChainIntegrity] at hval
    exact (hlast db.ledger hrows).trans hval
  exact hgoal

/-! An entry -/

/-- When PostgreSQL appends. -/
theorem appendLedgerEntry_returns {p : ProofDict} (htexts : ∀ s ∈ Postgres.insertTexts p, Postgres.quotable s = true)
    (hlink : Postgres.Continues (ProvableAi.lastRow pg.ledger p.tenant p.instanceId) p)
    (hfits : Postgres.fitsInteger p.sequenceId = true) (hcur : p.currentHash.length = 64)
    (hsig : p.signatureValue.length = 128) (hunique : Postgres.Unique pg.ledger p) :
    pg.appendLedgerEntry p = (.ok p.sequenceId,
      { pg with ledger := pg.ledger ++ [Postgres.row p], instances := Postgres.upsertInstance pg.instances p }) := by
  have hbind : ∀ texts : List String, texts ⊆ Postgres.insertTexts p → Postgres.bindTexts texts = .ok () :=
    fun texts hsub => Postgres.bindTexts_eq_ok.2 fun s hs => htexts s (hsub hs)
  have hrow : Postgres.checkRow p = .ok () := by
    rw [Postgres.checkRow, hbind _ (List.Subset.refl _), ok_bind, if_pos hfits, if_pos ⟨hcur, hsig⟩]
  have hins : Postgres.insertLedger pg.ledger p = .ok (pg.ledger ++ [Postgres.row p]) := by
    rw [Postgres.insertLedger, hrow, ok_bind, if_pos hunique]
  have htxn : Postgres.appendTxn pg p = .ok
      { pg with ledger := pg.ledger ++ [Postgres.row p], instances := Postgres.upsertInstance pg.instances p } := by
    rw [Postgres.appendTxn, hbind [p.tenant, p.instanceId] (by simp [Postgres.insertTexts]), ok_bind,
      Postgres.checkLink_eq_ok.2 hlink, ok_bind,
      hbind [p.tenant, p.instanceId, p.toState, p.policyVersion] (by simp [Postgres.insertTexts]), ok_bind, hins,
      ok_bind]
  rw [Postgres.Db.appendLedgerEntry, htxn]

/-- Without NUL, both databases count all characters. -/
theorem sqlLength_of_quotable {s : String} (h : Postgres.quotable s = true) : sqlLength s = s.length := by
  have hne : ∀ c ∈ s.toList, decide (c ≠ Char.ofNat 0) = true := by
    intro c hc
    refine decide_eq_true fun he => ?_
    rw [he] at hc
    simp [Postgres.quotable, hc] at h
  rw [sqlLength, List.takeWhile_eq_self_iff.2 hne, String.length_toList]

/-- What SQLite has checked of the link, on any ledger. -/
theorem checkLink_ok {l : List LedgerRow} {i prev t : String} {n : ℤ} (h : checkLink l i n prev t = .ok ()) :
    n = maxSequenceId l t i + 1 ∧
      prev = ((ProvableAi.lastRow l t i).map LedgerRow.currentHash).getD genesisHash := by
  rw [checkLink] at h
  by_cases h₁ : n < maxSequenceId l t i + 1
  · rw [if_pos h₁] at h
    cases h
  · rw [if_neg h₁] at h
    by_cases h₂ : n > maxSequenceId l t i + 1
    · rw [if_pos h₂] at h
      cases h
    · rw [if_neg h₂] at h
      by_cases h₃ : prev ≠ ((ProvableAi.lastRow l t i).map LedgerRow.currentHash).getD genesisHash
      · rw [if_pos h₃] at h
        cases h
      · exact ⟨by omega, not_not.1 h₃⟩

/-- The check of the link is the same statement on both sides. -/
theorem Rel.continues (h : Rel db pg) {p : ProofDict}
    (hlink : validateChainIntegrity db.ledger p.instanceId p.sequenceId p.previousHash p.tenant = .ok ()) :
    Postgres.Continues (ProvableAi.lastRow pg.ledger p.tenant p.instanceId) p := by
  have hlast := h.lastRow p.tenant p.instanceId
  have hcur : (ProvableAi.lastRow db.ledger p.tenant p.instanceId).map LedgerRow.currentHash =
      (ProvableAi.lastRow pg.ledger p.tenant p.instanceId).map LedgerRow.currentHash := by
    simpa [Option.map_map, Function.comp_def, entry] using congrArg (Option.map Entry.currentHash) hlast
  have hseq : (ProvableAi.lastRow db.ledger p.tenant p.instanceId).map LedgerRow.sequenceId =
      (ProvableAi.lastRow pg.ledger p.tenant p.instanceId).map LedgerRow.sequenceId := by
    simpa [Option.map_map, Function.comp_def, entry] using congrArg (Option.map Entry.sequenceId) hlast
  rw [validateChainIntegrity] at hlink
  cases hc : checkConflict db.ledger p.instanceId p.tenant with
  | error e => rw [hc] at hlink; cases hlink
  | ok u =>
    rw [hc] at hlink
    obtain ⟨hn, hprev⟩ := checkLink_ok hlink
    rw [Postgres.Continues, ← hcur, ← hseq]
    exact ⟨hprev, hn⟩

/-- The unique constraints are the same. -/
theorem Rel.unique (h : Rel db pg) {p : ProofDict} (hadm : Admissible db.ledger p.row) : Postgres.Unique pg.ledger p := by
  intro r hr
  have hmem : entry r ∈ (ProvableAi.rowsOf db.ledger p.tenant p.instanceId).map entry := by
    rw [h.rowsOf]
    exact List.mem_map_of_mem hr
  obtain ⟨r', hr', he⟩ := List.mem_map.1 hmem
  have hs : r'.sequenceId = r.sequenceId := congrArg Entry.sequenceId he
  have hc : r'.currentHash = r.currentHash := congrArg Entry.currentHash he
  exact ⟨hs ▸ hadm.2.2.2.1 r' hr', hc ▸ hadm.2.2.2.2 r' hr'⟩

/-- **An entry that SQLite appends and PostgreSQL can hold** is appended by both. -/
theorem Rel.appendEntry (h : Rel db pg) {p : ProofDict} (hp : PortableEntry db p) (now : String) :
    ∃ db' pg', db.appendLedgerEntry now p = (.ok p.sequenceId, db') ∧
      pg.appendLedgerEntry p = (.ok p.sequenceId, pg') ∧ Rel db' pg' := by
  obtain ⟨hsig, hval, hadm⟩ := hp.appendable
  have hcur : p.currentHash.length = 64 := by
    rw [← sqlLength_of_quotable (hp.texts _ (by simp [Postgres.insertTexts]))]
    exact hadm.1
  refine ⟨_, _, Db.appendLedgerEntry_of_appendable now hp.appendable,
    appendLedgerEntry_returns hp.texts (h.continues hval) hp.sequenceId hcur hsig (h.unique hadm), ?_⟩
  exact h.append rfl rfl rfl

/-- The texts of the first proof are quotable if those of the call are. -/
theorem FirstProof.texts {env : CallEnv} {a : DecisionArgs} {p : ProofV1} (h : FirstProof signer env a p)
    (hi : Postgres.quotable a.instanceId = true) (ht : ∀ s ∈ boundTexts signer env a, Postgres.quotable s = true) :
    ∀ s ∈ Postgres.insertTexts p.toDict, Postgres.quotable s = true := by
  have hc := h.built.carries
  have hdict : Postgres.insertTexts p.toDict =
      [defaultTenant, a.instanceId, genesisHash, sha256Hex (dumps p.payload),
        toHex (signer.sign (sha256 (utf8 (dumps p.payload)))), signer.keyId, a.policyVersion, a.fromState, a.toState,
        a.modelVersion, a.agentVersion, Postgres.jsonDumps (.obj p.decisionContext.metadata), dumps p.dump,
        env.now.text] := by
    rw [← h.built.instanceId, ← h.previousHash, ← h.built.hash_eq, ← h.built.value, ← h.keyId, ← hc.policyVersion,
      ← hc.fromState, ← hc.toState, ← hc.modelVersion, ← hc.agentVersion, ← h.timestamp]
    rfl
  rw [hdict]
  simp only [boundTexts, List.forall_mem_cons, List.not_mem_nil, false_imp_iff, implies_true, and_true] at ht ⊢
  obtain ⟨hf, hto, hm, hv, hpol, hk, hnow⟩ := ht
  exact ⟨by decide, hi, by decide, quotable_toHex _, quotable_toHex _, hk, hpol, hf, hto, hm, hv,
    Postgres.quotable_jsonDumps _, Postgres.quotable_dumps _, hnow⟩

/-- **One call.**  A portable call has the same result on both sides and keeps the
relation. -/
theorem Rel.step (h : Rel db pg) {c : Call} (hc : c.Portable signer db) :
    (sqlite signer db c).1.Same (postgres signer pg c).1 ∧ Rel (sqlite signer db c).2 (postgres signer pg c).2 := by
  cases c with
  | approve now a =>
    have hbind : Postgres.bindTexts [a.version] = .ok () :=
      Postgres.bindTexts_eq_ok.2 fun s hs => List.mem_singleton.1 hs ▸ hc
    rw [sqlite, postgres, hbind]
    exact ⟨rfl, h.approve now a⟩
  | record env a =>
    rw [sqlite, postgres, recordDecision, Postgres.recordDecision]
    rcases h.buildProof hc with heq | ⟨e, f, he, hf, hef⟩
    · rw [← heq]
      cases hb : ProvableAi.buildProof db signer env a with
      | error e => exact ⟨rfl, h⟩
      | ok p =>
        obtain ⟨hfirst, hreach, hrec, hfault⟩ := buildProof_first hc hb
        have hentry : PortableEntry db p.toDict :=
          ⟨hfirst.appendable (hc.tenant hrec hfault),
            hfirst.texts (hc.instanceId hreach) (hc.texts hrec hfault), by
            have hseq : p.toDict.sequenceId = 1 := hfirst.sequenceId
            rw [hseq]
            decide⟩
        obtain ⟨db', pg', hdb, hpg, hrel⟩ := h.appendEntry hentry env.now.text
        simp only [hdb, hpg]
        exact ⟨rfl, hrel⟩
    · rw [he, hf]
      exact ⟨hef, h⟩
  | append now p =>
    obtain ⟨db', pg', hdb, hpg, hrel⟩ := h.appendEntry hc now
    rw [sqlite, postgres, hdb, hpg]
    exact ⟨rfl, hrel⟩

end Rel

/-- Portable runs lead to the same results and to related databases. -/
theorem run_related {calls : List Call}
    (h : Lockstep.Along (sqlite signer) (fun db c => c.Portable signer db) .fresh calls) :
    List.Forall₂ (fun x y => x.1 = y.1 ∧ x.2.Same y.2) (Lockstep.outputs (sqlite signer) (fun _ => true) .fresh calls)
        (Lockstep.outputs (postgres signer) (fun _ => true) .fresh calls) ∧
      Rel (Lockstep.final (sqlite signer) .fresh calls) (Lockstep.final (postgres signer) .fresh calls) := by
  have hsim := @Lockstep.simulation _ _ _ _ _ (sqlite signer) (postgres signer) (fun _ => true)
    (fun db c => c.Portable signer db) Rel (fun _ r s => r.Same s) (fun db pg c hrel hok _ => hrel.step hok)
    (fun db pg c _ _ hfalse => absurd hfalse (by simp)) calls .fresh .fresh Rel.fresh h
  rwa [List.filter_eq_self.2 fun _ _ => rfl] at hsim

/-- **The two storages, call by call.**  In every run from fresh databases whose
calls are all portable in the state they find, `SQLiteStorage` and
`PostgreSQLHardenedStorage` return the same values, raise exceptions of the same
classes and end with the same rows. -/
theorem backends_agree {calls : List Call}
    (h : Lockstep.Along (sqlite signer) (fun db c => c.Portable signer db) .fresh calls) : Agree signer calls := by
  obtain ⟨hresults, hrel⟩ := run_related signer h
  exact ⟨hresults, hrel.rows⟩

/-! ### The second decision on an instance -/

theorem subscript_missing {j : Json} {k : String} (ho : j.isObj = true) (h : j.get? k = none) :
    Postgres.subscript j k = .error (.keyError k) := by
  cases j with
  | obj kvs =>
    have h : kvs.lookup k = none := h
    simp only [Postgres.subscript, h]
  | _ => cases ho

/-- A proof has no `current_hash` at its top. -/
theorem document_current_hash {p : ProofV1} (h : p.dump.wf = true) :
    Postgres.subscript p.document "current_hash" = .error (.keyError "current_hash") := by
  have hnone : p.dump.get? "current_hash" = none := rfl
  refine subscript_missing ?_ ?_
  · rw [ProofV1.document, ProofV1.dump, Json.canon_obj]
    rfl
  · rw [ProofV1.document, Json.get?_canon h, hnone]
    rfl

/-- **A decision on an instance whose last row holds a recorded proof raises
`KeyError`** on PostgreSQL, if it gets as far as the ledger. -/
theorem Rel.second_raises {signer : Signer} {db : Db} {pg : Postgres.Db} (h : Rel db pg) {env : CallEnv}
    {a : DecisionArgs} (hreach : ReachesLedger db a) (hkeys : a.policyVersion ∈ policyKeys db)
    (hi : Postgres.quotable a.instanceId = true) {p : ProofV1} (hwf : p.dump.wf = true)
    (hlast : ProvableAi.lastRow db.ledger defaultTenant a.instanceId = some p.row) :
    Postgres.recordDecision pg signer env a = (.error (.keyError "current_hash"), pg) := by
  obtain ⟨md, hmd⟩ := hreach.metadata
  obtain ⟨hm, hv, hp⟩ := validateGovernance_eq_ok.1 hreach.governance
  have hgov := Approvals.agree db.approvals pg.approvals (p := a.policyVersion) (h.models a.modelVersion)
    (h.agents a.agentVersion)
    fun _ _ => ⟨fun _ => (h.policies _).1 hkeys, fun _ => hp⟩
  have hg : pg.approvals.validateGovernance a.modelVersion a.agentVersion a.policyVersion = .ok () := by
    rcases hgov with ⟨-, hg⟩ | ⟨e, f, hg, -⟩
    · exact hg
    · rw [show db.approvals.validateGovernance a.modelVersion a.agentVersion a.policyVersion = .ok () from
        hreach.governance] at hg
      cases hg
  -- the row that PostgreSQL finds holds the same proof
  obtain ⟨r, hr, hentry⟩ : ∃ r, ProvableAi.lastRow pg.ledger defaultTenant a.instanceId = some r ∧
      entry r = entry p.row := by
    have hmap := h.lastRow defaultTenant a.instanceId
    rw [hlast, Option.map_some] at hmap
    exact Option.map_eq_some_iff.1 hmap.symm
  have hjson : loads r.proofJson = some p.document := by
    rw [show r.proofJson = p.row.proofJson from congrArg Entry.proofJson hentry]
    exact p.loads_row hwf
  have hbind : Postgres.bindTexts [defaultTenant, a.instanceId] = .ok () :=
    Postgres.bindTexts_eq_ok.2 fun s hs => by
      rcases List.mem_pair.1 hs with rfl | rfl
      · decide
      · exact hi
  have hlink : Postgres.getPreviousHashAndSequence pg a.instanceId = .error (.keyError "current_hash") := by
    rw [Postgres.getPreviousHashAndSequence, Postgres.Db.getLatestLedgerEntry, hbind, hr]
    simp only [ok_bind, hjson, document_current_hash hwf]
    rfl
  have hbuild : Postgres.buildProof pg signer env a = .error (.keyError "current_hash") := by
    rw [Postgres.buildProof, draftIn, hg, hmd, hreach.determinism, hlink]
    rfl
  rw [Postgres.recordDecision, hbuild]

/-- The approvals of the loan. -/
def loanApprovals : List Call :=
  [.approve "2026-01-01T00:00:00Z" (.addModel "v1.0.0"), .approve "2026-01-01T00:00:00Z" (.addAgent "a1"),
    .approve "2026-01-01T00:00:00Z" (.addPolicy "p1")]

/-- The loan's decision. -/
def loanRecord : Call := .record loanEnv (loanCall "pending" "approved" none)

theorem loanApprovals_final : Lockstep.final (sqlite loanSigner) .fresh loanApprovals = approved.db := rfl

theorem loan_portable : loanRecord.Portable loanSigner approved.db where
  policy _ _ := by decide
  first _ := rfl
  instanceId _ := by decide
  tenant _ _ := fun r hr => absurd hr List.not_mem_nil
  texts _ _ := by decide

theorem loanApprovals_portable :
    Lockstep.Along (sqlite loanSigner) (fun db c => c.Portable loanSigner db) .fresh loanApprovals :=
  ⟨rfl, rfl, rfl, trivial⟩

/-- The approvals and the loan's first decision: the storages agree. -/
theorem backends_agree_loan : Agree loanSigner (loanApprovals ++ [loanRecord]) :=
  backends_agree loanSigner (Lockstep.Along.append.2
    ⟨loanApprovals_portable, loanApprovals_final ▸ ⟨loan_portable, trivial⟩⟩)

/-- The decision after it. -/
def fundedRecord : Call := .record loanEnv (loanCall "approved" "funded" none)

/-- What the two storages answer to the second decision. -/
theorem fundedRecord_results {pg : Postgres.Db} (h : Rel approved.db pg) :
    (∃ q, (sqlite loanSigner (sqlite loanSigner approved.db loanRecord).2 fundedRecord).1 = .proof q) ∧
      (postgres loanSigner (postgres loanSigner pg loanRecord).2 fundedRecord).1 =
        .raised (.keyError "current_hash") := by
  obtain ⟨p, hb, hp⟩ := approved_inv.record_returns loanEnv (approved_recordable none) rfl (by simp [onInstance])
  have hinv : Inv loanSigner (approved.db.appended loanEnv.now.text p.toDict)
      [(loanCall "pending" "approved" none, p)] := by
    rcases approved_inv.record_cases loanEnv (loanCall "pending" "approved" none) with ⟨e, he⟩ | ⟨p', hp', hinv, -⟩
    · rw [hp] at he
      cases he
    · obtain rfl : p = p' := by
        rw [hp] at hp'
        exact Except.ok.inj (Prod.mk.inj hp').1
      exact hinv
  have hdb : (sqlite loanSigner approved.db loanRecord).2 = approved.db.appended loanEnv.now.text p.toDict := by
    rw [loanRecord, sqlite, hp]
  have hrel := (h.step loan_portable).2
  rw [hdb] at hrel ⊢
  have hrecordable : Recordable (approved.db.appended loanEnv.now.text p.toDict)
      (loanCall "approved" "funded" none) :=
    loanCall_recordable none (approved_recordable none).modelVersion (approved_recordable none).agentVersion
      (approved_recordable none).policyVersion (by decide) (by decide)
  constructor
  · obtain ⟨q, -, hq⟩ := funded_records hinv hb hrecordable
    exact ⟨q, by rw [fundedRecord, sqlite, hq]⟩
  · have hreach : ReachesLedger (approved.db.appended loanEnv.now.text p.toDict)
        (loanCall "approved" "funded" none) :=
      ⟨validateGovernance_eq_ok.2 ⟨hrecordable.modelVersion, hrecordable.agentVersion, hrecordable.policyVersion⟩,
        ⟨[], rfl⟩, rfl⟩
    have hkeys : "p1" ∈ policyKeys approved.db := by decide
    have hon : onInstance "loan_1" [(loanCall "pending" "approved" none, p)] =
        [(loanCall "pending" "approved" none, p)] := by simp [onInstance, loanCall]
    have hlast : ProvableAi.lastRow (approved.db.appended loanEnv.now.text p.toDict).ledger defaultTenant "loan_1" =
        some p.row := by
      rw [lastRow_eq hinv.chained, hinv.rowsOf_eq, hon]
      rfl
    have hwf := (hinv.built _ (List.mem_singleton_self _)).wf
    rw [fundedRecord, postgres, hrel.second_raises hreach hkeys (by decide) hwf hlast]

/-- Two decisions on one loan: SQLite records the second one, PostgreSQL raises. -/
theorem second_decision_disagrees : ¬ Agree loanSigner (loanApprovals ++ [loanRecord] ++ [fundedRecord]) := by
  intro h
  have hrel : Rel approved.db (Lockstep.final (postgres loanSigner) .fresh loanApprovals) :=
    loanApprovals_final ▸ (run_related loanSigner loanApprovals_portable).2
  obtain ⟨⟨q, hq⟩, hraise⟩ := fundedRecord_results hrel
  obtain ⟨-, hsame⟩ := Lockstep.last_related h.1
  rw [Lockstep.final_concat, Lockstep.final_concat, hraise, loanApprovals_final, hq] at hsame
  exact absurd hsame (by simp [Result.Same])

end Backends
end ProvableAi
