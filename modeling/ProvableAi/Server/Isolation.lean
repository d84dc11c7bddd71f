/-
# Tenants on one server

"No cross-tenant data access is possible", says `docs/security-architecture.md`:
every row is scoped by `tenant_id`, which is enforced at the application layer.
The handlers do not pass the tenant on.  `record_decision` stores every decision
under the default tenant and the reading endpoints look there, so the tenants of a
server share one ledger.

A history is a list of requests to a server over a fresh database.  It is compared
with the history without one tenant's decisions: the two servers run in lockstep
and stay `Alike`, which says that they hold the same rows of every instance on
which the tenant has not decided.

`isolated_of_harmless` says when a tenant `A` is isolated from a tenant `B` after
all: if `A` is the default tenant or none of its decisions is taken, and `B` asks
for no instance on which `A` has decided.
-/

import ProvableAi.Server.Endpoints
import ProvableAi.Engine.Backends

namespace ProvableAi

/-! ### The property -/

/-- The instance that a reading request asks for. -/
def Endpoint.reads : Endpoint → Option String
  | proof instanceId _ _ => some instanceId
  | chain instanceId _ => some instanceId
  | exportPackage instanceId _ => some instanceId
  | _ => none

/-- The rows that a reading request returns. -/
def Endpoint.returned (db : Db) : Endpoint → List LedgerRow
  | proof instanceId sequenceId _ => (db.getLedgerEntry instanceId sequenceId defaultTenant).toList
  | chain instanceId _ => db.getLedgerChain instanceId defaultTenant
  | exportPackage instanceId _ => db.getLedgerChain instanceId defaultTenant
  | _ => []

/-- A `POST /decision` of the tenant. -/
def Request.isDecisionOf (tenantId : String) (r : Request) : Bool :=
  match r.endpoint with
  | .decision _ => r.tenantId = tenantId
  | _ => false

/-- A reading request of the tenant. -/
def Request.isReadOf (tenantId : String) (r : Request) : Bool := r.tenantId = tenantId && r.endpoint.reads.isSome

namespace Server

/-- The tables and the record of a server, row by row. -/
def entries (s : Server) : List (LedgerRow × String × String) := s.engine.db.ledger.zip s.decided

section

variable (signer : Signer)

/-- The server after a history. -/
def after (s : Server) (rs : List Request) : Server := Lockstep.final (step signer) s rs

/-- The responses to the reading requests of a tenant. -/
def answers (tenantId : String) (s : Server) (rs : List Request) : List (Request × Response) :=
  Lockstep.outputs (step signer) (Request.isReadOf tenantId) s rs

/-- **Tenant isolation** of `B` from `A`, over one history. -/
structure Isolated (A B : String) (s : Server) (rs : List Request) : Prop where
  /-- `B` is answered as if `A` had decided nothing. -/
  responses : answers signer B s rs = answers signer B s (rs.filter fun r => !r.isDecisionOf A)
  /-- What `A` has decided is stored under its tenant. -/
  stored : ∀ e ∈ (after signer s rs).entries, e.2.1 = A → e.1.tenantId = A
  /-- What `A` has decided is not returned to `B`. -/
  unseen : ∀ before r rest, rs = before ++ r :: rest → r.tenantId = B →
    ∀ e ∈ (after signer s before).entries, e.2.1 = A → e.1 ∉ r.endpoint.returned (after signer s before).engine.db

end

/-- The request is a decision that the engine takes: its role may post it, it has the
versions that it needs, they are approved, and the signer does not raise. -/
def Takes (s : Server) (r : Request) : Prop :=
  ∃ body a, r.endpoint = .decision body ∧ r.role ∈ r.endpoint.allowed ∧ body.resolve s.engine.db = .ok a ∧
    Recordable s.engine.db a ∧ r.env.signFault = none

/-- A request that does not bring `A` and `B` together. -/
structure Harmless (A B : String) (s : Server) (r : Request) : Prop where
  decides : r.isDecisionOf A = true → A = defaultTenant ∨ ¬ s.Takes r
  reads : r.tenantId = B → ∀ i ∈ r.endpoint.reads, (A, i) ∉ s.decided

end Server

/-! ### What a response depends on -/

/-- The tables of the approved versions. -/
def Db.approvalTables (db : Db) : List ApprovedVersion × List ApprovedVersion × List ApprovedPolicy :=
  (db.approvedModels, db.approvedAgents, db.approvedPolicies)

section

variable {signer : Signer} {db db' : Db}

theorem Db.approvals_congr (h : db.approvalTables = db'.approvalTables) : db.approvals = db'.approvals := by
  simp only [approvalTables, Prod.mk.injEq] at h
  simp only [approvals, modelVersions, agentVersions, policyVersions, h.1, h.2.1, h.2.2]

theorem resolve_congr (h : db.approvalTables = db'.approvalTables) (body : DecisionRequest) :
    body.resolve db = body.resolve db' := by
  have hg := Db.approvals_congr h
  simp only [Db.approvals, Approvals.mk.injEq] at hg
  simp only [DecisionRequest.resolve, hg.1, hg.2.1, hg.2.2]

/-- `append_ledger_entry` under the default tenant sees the rows of the instance. -/
theorem appendLedgerEntry_congr (hone : OneTenant db.ledger) (hone' : OneTenant db'.ledger) (now : String)
    {p : ProofDict} (hp : p.tenant = defaultTenant)
    (hrows : rowsOf db.ledger defaultTenant p.instanceId = rowsOf db'.ledger defaultTenant p.instanceId) :
    (db.appendLedgerEntry now p).1 = (db'.appendLedgerEntry now p).1 := by
  have hcheck : validateChainIntegrity db.ledger p.instanceId p.sequenceId p.previousHash p.tenant =
      validateChainIntegrity db'.ledger p.instanceId p.sequenceId p.previousHash p.tenant := by
    have hlast : lastRow db.ledger defaultTenant p.instanceId = lastRow db'.ledger defaultTenant p.instanceId := by
      rw [lastRow, lastRow, hrows]
    rw [hp, validateChainIntegrity, validateChainIntegrity, checkConflict_ok hone, checkConflict_ok hone']
    simp only
    rw [checkLink, checkLink, maxSequenceId, maxSequenceId, hlast]
  have hadm : Admissible db.ledger p.row ↔ Admissible db'.ledger p.row := by
    have hrow : rowsOf db.ledger p.row.tenantId p.row.instanceId = rowsOf db'.ledger p.row.tenantId p.row.instanceId := by
      have ht : p.row.tenantId = defaultTenant := hp
      rw [ht]
      exact hrows
    rw [Admissible, Admissible, hrow]
  simp only [Db.appendLedgerEntry, hcheck, insertLedger, hadm]
  cases p.checkSignature with
  | error e => rfl
  | ok _ =>
    cases validateChainIntegrity db'.ledger p.instanceId p.sequenceId p.previousHash p.tenant with
    | error e => rfl
    | ok _ =>
      simp only
      split_ifs <;> rfl

/-- **`record_decision` sees the approvals and the rows of its instance.** -/
theorem recordDecision_congr (h : db.approvalTables = db'.approvalTables) (hone : OneTenant db.ledger)
    (hone' : OneTenant db'.ledger) (env : CallEnv) {a : DecisionArgs}
    (hrows : rowsOf db.ledger defaultTenant a.instanceId = rowsOf db'.ledger defaultTenant a.instanceId) :
    (recordDecision db signer env a).1 = (recordDecision db' signer env a).1 := by
  have hbuild : buildProof db signer env a = buildProof db' signer env a := by
    have hlink : getPreviousHashAndSequence db a.instanceId = getPreviousHashAndSequence db' a.instanceId := by
      simp only [getPreviousHashAndSequence, Db.getLatestLedgerEntry, lastRow, hrows]
    rw [buildProof, buildProof, draft_eq_draftIn, draft_eq_draftIn, Db.approvals_congr h, hlink]
  rw [recordDecision, recordDecision, hbuild]
  cases hb : buildProof db' signer env a with
  | error e => rfl
  | ok p =>
    have hi : p.instanceId = a.instanceId := by
      obtain ⟨d, -, hs⟩ := bind_eq_ok_iff.1 hb
      obtain ⟨-, -, l, s, -, -, hp⟩ := Draft.sign_eq_ok.1 hs
      exact (ProofV1.make_eq_some.1 hp).1
    rw [← hi] at hrows
    have happ := appendLedgerEntry_congr hone hone' env.now.text (p := p.toDict) rfl hrows
    simp only
    rcases h₁ : db.appendLedgerEntry env.now.text p.toDict with ⟨r₁, d₁⟩
    rcases h₂ : db'.appendLedgerEntry env.now.text p.toDict with ⟨r₂, d₂⟩
    rw [h₁, h₂] at happ
    obtain rfl : r₁ = r₂ := happ
    cases r₁ <;> rfl

/-- The reading endpoints see the rows of the instance. -/
theorem getProof_congr {i : String} (h : rowsOf db.ledger defaultTenant i = rowsOf db'.ledger defaultTenant i)
    (traceId : String) (n : Option ℤ) (verbose : Bool) : getProof db traceId i n verbose = getProof db' traceId i n verbose := by
  simp only [getProof, Db.getLedgerEntry, maxSequenceId, lastRow, h]

theorem getChain_congr {i : String} (h : rowsOf db.ledger defaultTenant i = rowsOf db'.ledger defaultTenant i)
    (traceId : String) (full : Bool) : getChain db traceId i full = getChain db' traceId i full := by
  simp only [getChain, Db.getLedgerChain, h]

theorem signedExport_congr {i : String} (h : rowsOf db.ledger defaultTenant i = rowsOf db'.ledger defaultTenant i)
    (env : CallEnv) : signedExport db signer env i = signedExport db' signer env i := by
  simp only [signedExport, Db.computeInstanceRoot, Db.getLedgerChain, h]

/-- The export knows how to read what the engine has recorded. -/
theorem learnInstance_row (s : Engine) (i : String) {p : ProofV1} (hp : p.dump.wf = true) :
    ∃ t, learnInstance s i p.row = .ok t ∧ t.db = s.db := by
  rw [learnInstance]
  split_ifs with hknown
  · exact ⟨s, rfl, rfl⟩
  · have hstate : (p.document.get? "decision").bind (fun d => d.get? "to_state") = some (.str p.decision.toState) := by
      have hdecision : p.document.get? "decision" = some p.decision.dump.canon := by
        rw [ProofV1.document, Json.get?_canon hp]
        rfl
      rw [hdecision, Option.bind_some, Json.get?_canon p.decision.dump_wf]
      rfl
    have hgov : p.document.get? "governance" = some p.governance.dump.canon := by
      rw [ProofV1.document, Json.get?_canon hp]
      rfl
    have hpolicy : p.governance.dump.canon.getD "policy_version" (.str "") = .ok (.str p.governance.policyVersion) := by
      rw [Json.getD_eq_ok, Json.get?_canon p.governance.dump_wf]
      exact ⟨rfl, rfl⟩
    rw [p.loadProof_row hp]
    simp only [bind, Except.bind, hstate, hgov, hpolicy]
    exact ⟨_, rfl, rfl⟩

end

/-! ### What a request changes -/

section

variable {signer : Signer}

/-- A call that configures. -/
def Op.configures : Op → Bool
  | .recordDecision .. => false
  | .exportProof .. => false
  | _ => true

theorem registerProtocol_tables (db : Db) (now hash : String) (spec : Json) :
    (db.registerProtocol now hash spec).ledger = db.ledger ∧
      (db.registerProtocol now hash spec).approvalTables = db.approvalTables := by
  rw [Db.registerProtocol]
  split <;> exact ⟨rfl, rfl⟩

theorem createInstance_tables (s : Engine) (i : String) :
    (s.createInstance i).2.db.ledger = s.db.ledger ∧
      (s.createInstance i).2.db.approvalTables = s.db.approvalTables := by
  rw [Engine.createInstance]
  split
  · exact ⟨rfl, rfl⟩
  · split
    · exact ⟨rfl, rfl⟩
    · split <;> exact ⟨rfl, rfl⟩

/-- Configuring leaves the ledger alone. -/
theorem configures_ledger {s : Engine} {op : Op} (h : op.configures = true) :
    (s.step signer op).2.db.ledger = s.db.ledger := by
  cases op with
  | recordDecision env a => cases h
  | exportProof env i => cases h
  | compile now spec => exact (registerProtocol_tables ..).1
  | createInstance i => exact (createInstance_tables s i).1
  | _ => rfl

/-- Configuring approves the same on every server. -/
theorem configures_congr {s t : Engine} {op : Op} (h : op.configures = true)
    (hst : s.db.approvalTables = t.db.approvalTables) :
    (s.step signer op).2.db.approvalTables = (t.step signer op).2.db.approvalTables := by
  have heq := hst
  simp only [Db.approvalTables, Prod.mk.injEq] at heq
  obtain ⟨hm, ha, hp⟩ := heq
  cases op with
  | recordDecision env a => cases h
  | exportProof env i => cases h
  | addApprovedModel now v n => simp only [Engine.step, Db.approvalTables, Db.addApprovedModel, hm, ha, hp]
  | addApprovedAgent now v n => simp only [Engine.step, Db.approvalTables, Db.addApprovedAgent, hm, ha, hp]
  | addApprovedPolicy now v n => simp only [Engine.step, Db.approvalTables, Db.addApprovedPolicy, hm, ha, hp]
  | deactivatePolicy v => simp only [Engine.step, Db.approvalTables, Db.deactivatePolicy, hm, ha, hp]
  | compile now spec =>
    exact ((registerProtocol_tables ..).2.trans hst).trans (registerProtocol_tables ..).2.symm
  | createInstance i =>
    exact ((createInstance_tables s i).2.trans hst).trans (createInstance_tables t i).2.symm

theorem calls_ledger {ops : List Op} (h : ∀ op ∈ ops, op.configures = true) :
    ∀ s : Engine, (s.calls signer ops).2.db.ledger = s.db.ledger := by
  induction ops with
  | nil => exact fun _ => rfl
  | cons op ops ih =>
    intro s
    obtain ⟨hop, hops⟩ := List.forall_mem_cons.1 h
    exact (ih hops _).trans (configures_ledger hop)

theorem calls_congr {ops : List Op} (h : ∀ op ∈ ops, op.configures = true) :
    ∀ {s t : Engine}, s.db.approvalTables = t.db.approvalTables →
      (s.calls signer ops).2.db.approvalTables = (t.calls signer ops).2.db.approvalTables := by
  induction ops with
  | nil => exact fun hst => hst
  | cons op ops ih =>
    intro s t hst
    obtain ⟨hop, hops⟩ := List.forall_mem_cons.1 h
    exact ih hops (configures_congr hop hst)

theorem activate_db {s t : Engine} {hash : Option String} (h : activate s hash = some t) : t.db = s.db := by
  rw [activate.eq_def] at h
  split at h
  · rw [← Option.some.inj h]
  · rw [← Option.some.inj h]
  · obtain ⟨stored, -, rfl⟩ := Option.map_eq_some_iff.1 h
    rfl

/-- The calls of a configuring request, and whether the ledger sees it. -/
theorem Setup.run_ledger (what : Setup) (now traceId : String) (s : Engine) :
    (what.run signer now traceId s).2.db.ledger = s.db.ledger := by
  cases what with
  | createInstance i hash =>
    rw [Setup.run]
    split
    · rfl
    · rename_i t ht
      rw [← activate_db ht]
      exact calls_ledger (by simp [Op.configures]) t
  | _ =>
    rw [Setup.run]
    exact calls_ledger (by simp [Op.configures]) s

theorem Setup.run_congr (what : Setup) (now traceId : String) {s t : Engine}
    (h : s.db.approvalTables = t.db.approvalTables) :
    (what.run signer now traceId s).2.db.approvalTables = (what.run signer now traceId t).2.db.approvalTables := by
  cases what with
  | createInstance i hash =>
    have hkeep : ∀ u : Engine, ((Setup.createInstance i hash).run signer now traceId u).2.db.approvalTables =
        u.db.approvalTables := by
      intro u
      rw [Setup.run]
      split
      · rfl
      · rename_i v hv
        rw [← activate_db hv]
        exact (createInstance_tables v i).2
    rw [hkeep, hkeep, h]
  | _ =>
    rw [Setup.run, Setup.run]
    exact calls_congr (by simp [Op.configures]) h

end

section

variable {signer : Signer}

/-- The proof that `POST /decision` records. -/
def DecisionRequest.recorded (signer : Signer) (env : CallEnv) (db : Db) (body : DecisionRequest) : Option ProofV1 :=
  match body.resolve db with
  | .ok a => (recordDecision db signer env a).1.toOption
  | .error _ => none

theorem resolve_instanceId {body : DecisionRequest} {db : Db} {a : DecisionArgs} (h : body.resolve db = .ok a) :
    a.instanceId = body.instanceId := by
  rw [DecisionRequest.resolve] at h
  split at h
  · cases h
  · split at h
    · cases h
    · cases h
    · cases h
    · rw [← Except.ok.inj h]
      rfl

/-- **One `POST /decision`**: nothing is recorded, or the proof of the engine. -/
theorem postDecision_cases {db : Db} {acc : List (DecisionArgs × ProofV1)} (h : Inv signer db acc) (env : CallEnv)
    (traceId : String) (body : DecisionRequest) :
    (body.recorded signer env db = none ∧ ∃ response, postDecision signer env traceId db body = (response, db, false)) ∨
    ∃ a p, body.recorded signer env db = some p ∧ body.resolve db = .ok a ∧
      postDecision signer env traceId db body =
        (decisionResponse traceId p, db.appended env.now.text p.toDict, true) ∧
      Inv signer (db.appended env.now.text p.toDict) (acc ++ [(a, p)]) ∧ Recordable db a ∧ env.signFault = none := by
  rw [DecisionRequest.recorded, postDecision]
  cases ha : body.resolve db with
  | error e => exact .inl ⟨rfl, e, rfl⟩
  | ok a =>
    obtain ⟨e, he⟩ | ⟨p, hp, hnext, hrec, hfault⟩ := h.record_cases env a
    · simp only [he]
      exact .inl ⟨rfl, _, rfl⟩
    · simp only [hp]
      exact .inr ⟨a, p, rfl, rfl, rfl, hnext, hrec, hfault⟩

/-- **The export** of what the engine has recorded: it only adds the instance to what the
engine knows, and freezes it. -/
theorem exportProofPackage_eq {s : Engine} {acc : List (DecisionArgs × ProofV1)} (h : Inv signer s.db acc) (env : CallEnv)
    (traceId i : String) (inline : Bool) :
    (exportProofPackage signer env traceId s i inline).1 =
        (match (rowsOf s.db.ledger defaultTenant i).getLast?, signedExport s.db signer env i with
        | none, _ => .failed 404 "INSTANCE_NOT_FOUND" ("No decisions recorded for instance '" ++ i ++ "'.")
            [("hint", .str "Record decisions via POST /decision before exporting a proof package.")]
        | some _, .error e => exportError e
        | some _, .ok package => .json 200 (if inline then package else exportSummary traceId i package)) ∧
      (exportProofPackage signer env traceId s i inline).2.db.ledger = s.db.ledger ∧
      (exportProofPackage signer env traceId s i inline).2.db.approvalTables = s.db.approvalTables := by
  rw [exportProofPackage, Db.getLedgerChain_eq h.chained]
  cases hlast : (rowsOf s.db.ledger defaultTenant i).getLast? with
  | none => exact ⟨rfl, rfl, rfl⟩
  | some last =>
    have hmem := List.mem_of_getLast? hlast
    rw [h.rowsOf_eq] at hmem
    obtain ⟨p, hp, rfl⟩ := List.mem_map.1 hmem
    obtain ⟨t, ht, hdb⟩ := learnInstance_row s i (h.dump_wf i p hp)
    simp only [ht, exportProof, hdb]
    cases signedExport s.db signer env i with
    | error e => exact ⟨rfl, by rw [← hdb], by rw [← hdb]⟩
    | ok package => exact ⟨rfl, rfl, rfl⟩

end

namespace Server

section

variable (signer : Signer)

/-- The proof that a request records. -/
def added (s : Server) (r : Request) : Option ProofV1 :=
  if r.role ∈ r.endpoint.allowed then
    match r.endpoint with
    | .decision body => body.recorded signer r.env s.engine.db
    | _ => none
  else none

/-- The ledger holds the decisions of the record, in their order. -/
def Sound (s : Server) : Prop :=
  ∃ acc, Inv signer s.engine.db acc ∧ s.decided.map Prod.snd = acc.map fun ap => ap.1.instanceId

/-- What a request leaves, when it records `p` or nothing. -/
structure Leaves (s t : Server) (tenantId : String) (p : Option ProofV1) : Prop where
  ledger : t.engine.db.ledger = s.engine.db.ledger ++ p.toList.map ProofV1.row
  decided : t.decided = s.decided ++ p.toList.map fun q => (tenantId, q.instanceId)
  sound : t.Sound signer

end

variable {signer : Signer} {s t : Server} {r : Request}

theorem Sound.leaves_nothing (h : s.Sound signer) (hl : t.engine.db.ledger = s.engine.db.ledger)
    (hd : t.decided = s.decided) (tenantId : String) : Leaves signer s t tenantId none := by
  obtain ⟨acc, hinv, hacc⟩ := h
  exact ⟨by simp [hl], by simp [hd], acc, hinv.of_ledger_eq hl, by rw [hd]; exact hacc⟩

/-- **One request**: it records the proof that it adds, or nothing. -/
theorem step_leaves (h : s.Sound signer) (r : Request) :
    Leaves signer s (s.step signer r).2 r.tenantId (s.added signer r) := by
  rw [step, added]
  split_ifs with hrole
  · rw [handle]
    cases r.endpoint with
    | setup what =>
      refine h.leaves_nothing ?_ ?_ _
      · exact what.run_ledger _ _ _
      · rfl
    | proof i n v => exact h.leaves_nothing rfl rfl _
    | chain i full => exact h.leaves_nothing rfl rfl _
    | exportPackage i inline =>
      refine h.leaves_nothing ?_ ?_ _
      · obtain ⟨acc, hinv, -⟩ := h
        exact (exportProofPackage_eq hinv ..).2.1
      · rfl
    | decision body =>
      obtain ⟨acc, hinv, hacc⟩ := h
      obtain ⟨hnone, response, hpost⟩ | ⟨a, p, hsome, ha, hpost, hnext, -⟩ := postDecision_cases hinv r.env r.traceId body
      · simp only [hpost, hnone]
        exact Sound.leaves_nothing ⟨acc, hinv, hacc⟩ rfl rfl _
      · simp only [hpost, hsome]
        have hi : p.instanceId = body.instanceId := by
          rw [(hnext.built (a, p) (by simp)).instanceId]
          exact resolve_instanceId ha
        refine ⟨rfl, by simp [hi], _, hnext, ?_⟩
        simp [hacc, resolve_instanceId ha]
  · exact h.leaves_nothing rfl rfl _

theorem added_eq_some {p : ProofV1} (h : s.added signer r = some p) :
    ∃ body, r.endpoint = .decision body ∧ r.role ∈ r.endpoint.allowed ∧ body.recorded signer r.env s.engine.db = some p := by
  rw [added] at h
  split_ifs at h with hrole
  cases he : r.endpoint with
  | decision body =>
    rw [he] at h hrole
    exact ⟨body, rfl, hrole, h⟩
  | _ => rw [he] at h; cases h

/-- A proof that is recorded is of a decision that the engine takes, on its instance. -/
theorem Sound.added_takes (h : s.Sound signer) {p : ProofV1} (hp : s.added signer r = some p) :
    s.Takes r ∧ ∃ body, r.endpoint = .decision body ∧ p.instanceId = body.instanceId := by
  obtain ⟨body, he, hrole, hrec⟩ := added_eq_some hp
  obtain ⟨acc, hinv, -⟩ := h
  obtain ⟨hnone, -⟩ | ⟨a, q, hsome, ha, -, hnext, htakes⟩ := postDecision_cases hinv r.env r.traceId body
  · rw [hnone] at hrec
    cases hrec
  · obtain rfl := Option.some.inj (hsome.symm.trans hrec)
    refine ⟨⟨body, a, he, hrole, ha, htakes⟩, body, he, ?_⟩
    rw [(hnext.built (a, q) (by simp)).instanceId]
    exact resolve_instanceId ha

/-- What is recorded depends on the approvals and the rows of the instance. -/
theorem added_congr (hs : s.Sound signer) (ht : t.Sound signer)
    (h : s.engine.db.approvalTables = t.engine.db.approvalTables)
    (hrows : ∀ body, r.endpoint = .decision body → rowsOf s.engine.db.ledger defaultTenant body.instanceId =
      rowsOf t.engine.db.ledger defaultTenant body.instanceId) : s.added signer r = t.added signer r := by
  rw [added, added]
  split_ifs with hrole
  · cases he : r.endpoint with
    | decision body =>
      obtain ⟨_, hinvs, -⟩ := hs
      obtain ⟨_, hinvt, -⟩ := ht
      simp only [DecisionRequest.recorded, resolve_congr h body]
      cases ha : body.resolve t.engine.db with
      | error e => rfl
      | ok a =>
        have hrows := hrows body he
        rw [← resolve_instanceId ha] at hrows
        simp only [recordDecision_congr h hinvs.oneTenant hinvt.oneTenant r.env hrows]
    | _ => rfl
  · rfl

/-- **What a reading request is answered** depends on the rows of its instance. -/
theorem step_reads_congr (hs : s.Sound signer) (ht : t.Sound signer) {i : String} (hi : r.endpoint.reads = some i)
    (hrows : rowsOf s.engine.db.ledger defaultTenant i = rowsOf t.engine.db.ledger defaultTenant i) :
    (s.step signer r).1 = (t.step signer r).1 := by
  rw [step, step]
  split_ifs with hrole
  · rw [handle, handle]
    cases he : r.endpoint with
    | setup what => rw [he] at hi; cases hi
    | decision body => rw [he] at hi; cases hi
    | proof j n v =>
      rw [he] at hi
      obtain rfl := Option.some.inj hi
      exact getProof_congr hrows ..
    | chain j full =>
      rw [he] at hi
      obtain rfl := Option.some.inj hi
      exact getChain_congr hrows ..
    | exportPackage j inline =>
      rw [he] at hi
      obtain rfl := Option.some.inj hi
      obtain ⟨_, hinvs, -⟩ := hs
      obtain ⟨_, hinvt, -⟩ := ht
      simp only [(exportProofPackage_eq hinvs ..).1, (exportProofPackage_eq hinvt ..).1, hrows,
        signedExport_congr hrows]
  · rfl

/-- Only a configuring request changes the approvals. -/
theorem step_approvalTables (h : s.Sound signer) (hr : ∀ what, r.endpoint ≠ .setup what) :
    (s.step signer r).2.engine.db.approvalTables = s.engine.db.approvalTables := by
  obtain ⟨acc, hinv, -⟩ := h
  rw [step]
  split_ifs with hrole
  · rw [handle]
    cases he : r.endpoint with
    | setup what => exact absurd he (hr what)
    | proof i n v => rfl
    | chain i full => rfl
    | exportPackage i inline => exact (exportProofPackage_eq hinv ..).2.2
    | decision body =>
      obtain ⟨-, response, hpost⟩ | ⟨a, p, -, -, hpost, -⟩ := postDecision_cases hinv r.env r.traceId body
      · simp only [hpost]
      · simp only [hpost]
        rfl
  · rfl

theorem step_approvalTables_congr (hs : s.Sound signer) (ht : t.Sound signer)
    (h : s.engine.db.approvalTables = t.engine.db.approvalTables) :
    (s.step signer r).2.engine.db.approvalTables = (t.step signer r).2.engine.db.approvalTables := by
  by_cases hr : ∃ what, r.endpoint = .setup what
  · obtain ⟨what, he⟩ := hr
    rw [step, step]
    split_ifs with hrole
    · simp only [handle, he]
      exact what.run_congr _ _ h
    · exact h
  · have hr : ∀ what, r.endpoint ≠ .setup what := fun what he => hr ⟨what, he⟩
    rw [step_approvalTables hs hr, step_approvalTables ht hr, h]

/-! ### Two servers -/

/-- Two servers that hold the same of every instance on which `A` has not decided. -/
structure Alike (signer : Signer) (A : String) (s t : Server) : Prop where
  left : s.Sound signer
  right : t.Sound signer
  approvals : s.engine.db.approvalTables = t.engine.db.approvalTables
  rows : ∀ i, (A, i) ∉ s.decided →
    rowsOf s.engine.db.ledger defaultTenant i = rowsOf t.engine.db.ledger defaultTenant i

theorem rowsOf_added {p : Option ProofV1} {i : String} (h : ∀ q ∈ p, q.instanceId ≠ i) :
    rowsOf (p.toList.map ProofV1.row) defaultTenant i = [] := by
  cases p with
  | none => rfl
  | some q => exact rowsOf_other fun hi => h q rfl hi.2

/-- A request to both servers. -/
theorem Alike.keep {A : String} (h : Alike signer A s t) (r : Request) :
    Alike signer A (s.step signer r).2 (t.step signer r).2 := by
  have hs := step_leaves h.left r
  have ht := step_leaves h.right r
  refine ⟨hs.sound, ht.sound, step_approvalTables_congr h.left h.right h.approvals, fun i hi => ?_⟩
  rw [hs.decided, List.mem_append, not_or] at hi
  have hrows := h.rows i hi.1
  rw [hs.ledger, ht.ledger, rowsOf_append, rowsOf_append, hrows]
  by_cases hr : ∃ body, r.endpoint = .decision body ∧ body.instanceId = i
  · obtain ⟨body, he, rfl⟩ := hr
    rw [added_congr h.left h.right h.approvals fun body' he' => ?_]
    obtain rfl : body = body' := Endpoint.decision.inj (he.symm.trans he')
    exact hrows
  · have hother : ∀ u : Server, u.Sound signer → ∀ q ∈ u.added signer r, q.instanceId ≠ i := by
      intro u hu q hq hqi
      obtain ⟨-, body, he, hb⟩ := hu.added_takes hq
      exact hr ⟨body, he, hb.symm.trans hqi⟩
    rw [rowsOf_added (hother s h.left), rowsOf_added (hother t h.right)]

/-- A decision of `A` to the first server only. -/
theorem Alike.skip {A : String} (h : Alike signer A s t) (hr : r.isDecisionOf A = true) :
    Alike signer A (s.step signer r).2 t := by
  have hs := step_leaves h.left r
  obtain ⟨body, he, hA⟩ : ∃ body, r.endpoint = .decision body ∧ r.tenantId = A := by
    rw [Request.isDecisionOf] at hr
    split at hr
    · exact ⟨_, ‹_›, of_decide_eq_true hr⟩
    · cases hr
  refine ⟨hs.sound, h.right, ?_, fun i hi => ?_⟩
  · rw [step_approvalTables h.left (fun what hw => by rw [he] at hw; cases hw), h.approvals]
  · rw [hs.decided, List.mem_append, not_or] at hi
    rw [hs.ledger, rowsOf_append, h.rows i hi.1, rowsOf_added, List.append_nil]
    rintro q hq rfl
    refine hi.2 (List.mem_map.2 ⟨q, by simpa using hq, by rw [hA]⟩)

/-! ### Isolation -/

/-- A row and its decision are of one instance. -/
theorem Sound.entries_aligned (h : s.Sound signer) {e : LedgerRow × String × String} (he : e ∈ s.entries) :
    e.1.instanceId = e.2.2 := by
  obtain ⟨acc, hinv, hacc⟩ := h
  obtain ⟨k, hk⟩ := List.mem_iff_getElem?.1 he
  obtain ⟨hl, hd⟩ := List.getElem?_zip_eq_some.1 hk
  rw [hinv.ledger, List.getElem?_map] at hl
  obtain ⟨ap, hap, hrow⟩ := Option.map_eq_some_iff.1 hl
  have hi : (acc.map fun ap => ap.1.instanceId)[k]? = some e.2.2 := by
    rw [← hacc, List.getElem?_map, hd]
    rfl
  rw [List.getElem?_map, hap] at hi
  rw [← hrow, ← Option.some.inj hi]
  exact (hinv.built ap (List.mem_of_getElem? hap)).instanceId

/-- Every decision of the record has its row. -/
theorem Sound.exists_entry (h : s.Sound signer) {d : String × String} (hd : d ∈ s.decided) :
    ∃ row, (row, d) ∈ s.entries := by
  obtain ⟨acc, hinv, hacc⟩ := h
  have hlen : s.engine.db.ledger.length = s.decided.length := by
    have hlen := congrArg List.length hacc
    rw [List.length_map, List.length_map] at hlen
    rw [hinv.ledger, List.length_map, hlen]
  obtain ⟨k, hk, hdk⟩ := List.getElem_of_mem hd
  have hkl : k < s.engine.db.ledger.length := hlen ▸ hk
  refine ⟨s.engine.db.ledger[k], List.mem_iff_getElem?.2 ⟨k, ?_⟩⟩
  exact List.getElem?_zip_eq_some.2 ⟨List.getElem?_eq_getElem hkl, by rw [List.getElem?_eq_getElem hk, hdk]⟩

theorem mem_entries {e : LedgerRow × String × String} (he : e ∈ s.entries) :
    e.1 ∈ s.engine.db.ledger ∧ e.2 ∈ s.decided := by
  obtain ⟨k, hk⟩ := List.mem_iff_getElem?.1 he
  obtain ⟨hl, hd⟩ := List.getElem?_zip_eq_some.1 hk
  exact ⟨List.mem_of_getElem? hl, List.mem_of_getElem? hd⟩

/-- The rows that a request returns are of the instance that it asks for. -/
theorem reads_of_returned {db : Db} {e : Endpoint} {row : LedgerRow} (h : row ∈ e.returned db) :
    e.reads = some row.instanceId := by
  have hchain : ∀ i, row ∈ db.getLedgerChain i defaultTenant → row.instanceId = i := by
    intro i hi
    rw [Db.getLedgerChain, List.mem_insertionSort] at hi
    exact (mem_rowsOf.1 hi).2.2
  cases e with
  | setup what => cases h
  | decision body => cases h
  | chain i full => rw [Endpoint.reads, hchain i h]
  | exportPackage i inline => rw [Endpoint.reads, hchain i h]
  | proof i n v =>
    have hrow : row ∈ rowsOf db.ledger defaultTenant i := by
      rw [Endpoint.returned, Option.mem_toList] at h
      cases n with
      | some n => exact List.mem_of_find?_eq_some h
      | none => exact List.argmax_mem h
    rw [Endpoint.reads, (mem_rowsOf.1 hrow).2.2]

theorem start_ledger (now : String) (ms as ps : List String) : (start now ms as ps).engine.db.ledger = [] := by
  have hfold : ∀ (f : Db → String → Db), (∀ db v, (f db v).ledger = db.ledger) → ∀ (vs : List String) (db : Db),
      (vs.foldl f db).ledger = db.ledger := by
    intro f hf vs
    induction vs with
    | nil => exact fun _ => rfl
    | cons v vs ih => exact fun db => (ih (f db v)).trans (hf db v)
  simp only [start]
  rw [hfold (fun db p => db.addApprovedPolicy now p "") fun _ _ => rfl,
    hfold (fun db a => db.addApprovedAgent now a "") fun _ _ => rfl,
    hfold (fun db m => db.addApprovedModel now m "") fun _ _ => rfl]
  rfl

theorem start_sound (now : String) (ms as ps : List String) : (start now ms as ps).Sound signer :=
  ⟨[], Inv.fresh.of_ledger_eq (start_ledger now ms as ps), rfl⟩

variable {A B : String}

/-- What `A` has decided is under its tenant, as far as the record goes. -/
theorem Harmless.decided (hh : Harmless A B s r) (h : s.Sound signer ∧ ∀ i, (A, i) ∈ s.decided → A = defaultTenant) :
    (s.step signer r).2.Sound signer ∧ ∀ i, (A, i) ∈ (s.step signer r).2.decided → A = defaultTenant := by
  have hs := step_leaves h.1 r
  refine ⟨hs.sound, fun i hi => ?_⟩
  rw [hs.decided, List.mem_append] at hi
  rcases hi with hi | hi
  · exact h.2 i hi
  · obtain ⟨p, hp, heq⟩ := List.mem_map.1 hi
    obtain ⟨htakes, body, he, -⟩ := h.1.added_takes (Option.mem_toList.1 hp)
    have hA : r.isDecisionOf A = true := by
      rw [Request.isDecisionOf, he]
      exact decide_eq_true (congrArg Prod.fst heq)
    exact (hh.decides hA).resolve_right (not_not.2 htakes)

theorem not_isDecisionOf_of_isReadOf (h : r.isReadOf B = true) : (!r.isDecisionOf A) = true := by
  rw [Request.isReadOf] at h
  rw [Request.isDecisionOf]
  cases he : r.endpoint with
  | decision body => rw [he] at h; simp [Endpoint.reads] at h
  | _ => rfl

/-- **The two histories side by side**: what `B` reads is answered alike. -/
theorem answers_eq {rs : List Request} (hs : s.Sound signer)
    (h : Lockstep.Along (step signer) (Harmless A B) s rs) :
    answers signer B s rs = answers signer B s (rs.filter fun r => !r.isDecisionOf A) := by
  have hkeep : ∀ s t r, Alike signer A s t → Harmless A B s r → (!r.isDecisionOf A) = true →
      (r.isReadOf B = true → (s.step signer r).1 = (t.step signer r).1) ∧
        Alike signer A (s.step signer r).2 (t.step signer r).2 := by
    refine fun s t r hst hr _ => ⟨fun hread => ?_, hst.keep r⟩
    rw [Request.isReadOf, Bool.and_eq_true, decide_eq_true_eq] at hread
    obtain ⟨i, hi⟩ := Option.isSome_iff_exists.1 hread.2
    exact step_reads_congr hst.left hst.right hi (hst.rows i (hr.reads hread.1 i hi))
  have hskip : ∀ s t r, Alike signer A s t → Harmless A B s r → (!r.isDecisionOf A) = false →
      Alike signer A (s.step signer r).2 t := fun s t r hst _ hr => hst.skip (by simpa using hr)
  have hsim := (@Lockstep.simulation _ _ _ _ _ (step signer) (step signer) _ (Harmless A B) (Alike signer A)
    (fun r o o' => r.isReadOf B = true → o = o') hkeep hskip rs s s ⟨hs, hs, rfl, fun _ _ => rfl⟩ h).1
  calc
    answers signer B s rs =
        (Lockstep.outputs (step signer) (fun r => !r.isDecisionOf A) s rs).filter fun x => x.1.isReadOf B :=
      Lockstep.outputs_filter _ (fun _ => not_isDecisionOf_of_isReadOf) s
    _ = (Lockstep.outputs (step signer) (fun _ => true) s (rs.filter fun r => !r.isDecisionOf A)).filter fun x =>
        x.1.isReadOf B := Lockstep.filter_eq_of_related hsim
    _ = answers signer B s (rs.filter fun r => !r.isDecisionOf A) :=
      (Lockstep.outputs_filter _ (fun _ _ => rfl) s).symm

theorem isolated_of_harmless {rs : List Request} (hs : s.Sound signer) (hempty : s.decided = [])
    (h : Lockstep.Along (step signer) (Harmless A B) s rs) : Isolated signer A B s rs := by
  have hinv : ∀ {rs : List Request}, Lockstep.Along (step signer) (Harmless A B) s rs →
      (after signer s rs).Sound signer ∧ ∀ i, (A, i) ∈ (after signer s rs).decided → A = defaultTenant :=
    fun h => h.invariant (fun _ _ hI hh => hh.decided hI) ⟨hs, by simp [hempty]⟩
  refine ⟨answers_eq hs h, fun e he hA => ?_, fun before r rest hrs hB e he hA hmem => ?_⟩
  · obtain ⟨hsound, hdef⟩ := hinv h
    obtain ⟨hrow, hdec⟩ := mem_entries he
    obtain ⟨acc, hinv, -⟩ := hsound
    rw [hinv.oneTenant e.1 hrow]
    exact (hdef e.2.2 (hA ▸ hdec)).symm
  · rw [hrs, Lockstep.Along.append] at h
    obtain ⟨hbefore, hr, -⟩ := h
    obtain ⟨-, hdec⟩ := mem_entries he
    have hi := reads_of_returned hmem
    rw [(hinv hbefore).1.entries_aligned he] at hi
    exact hr.reads hB _ hi (hA ▸ hdec)

/-- Rows that are returned, for the endpoints that return a whole chain. -/
theorem Sound.mem_returned (h : s.Sound signer) {row : LedgerRow} (hrow : row ∈ s.engine.db.ledger) (full : Bool) :
    row ∈ (Endpoint.chain row.instanceId full).returned s.engine.db ∧
      row ∈ (Endpoint.exportPackage row.instanceId full).returned s.engine.db := by
  obtain ⟨acc, hinv, -⟩ := h
  have hmem : row ∈ s.engine.db.getLedgerChain row.instanceId defaultTenant := by
    rw [Db.getLedgerChain, List.mem_insertionSort]
    exact mem_rowsOf.2 ⟨hrow, hinv.oneTenant row hrow, rfl⟩
  exact ⟨hmem, hmem⟩

theorem Sound.after (h : s.Sound signer) (rs : List Request) : (after signer s rs).Sound signer := by
  induction rs generalizing s with
  | nil => exact h
  | cons r rs ih => exact ih (step_leaves h r).sound

/-- What isolation asks for. -/
theorem Isolated.necessary {rs : List Request} (hs : s.Sound signer) (h : Isolated signer A B s rs) :
    (A = defaultTenant ∨ ∀ i, (A, i) ∉ (after signer s rs).decided) ∧
    ∀ before r rest, rs = before ++ r :: rest → r.tenantId = B → ∀ i full,
      r.endpoint = .chain i full ∨ r.endpoint = .exportPackage i full →
        (A, i) ∉ (after signer s before).decided := by
  refine ⟨?_, fun before r rest hrs hB i full he hmem => ?_⟩
  · by_contra! hno
    obtain ⟨hA, i, hi⟩ := hno
    have hsound := hs.after rs
    obtain ⟨row, hrow⟩ := hsound.exists_entry hi
    obtain ⟨acc, hinv, -⟩ := hsound
    have htenant : row.tenantId = A := h.stored _ hrow rfl
    exact hA (htenant.symm.trans (hinv.oneTenant row (mem_entries hrow).1))
  · have hsound := hs.after before
    obtain ⟨row, hrow⟩ := hsound.exists_entry hmem
    have hi : row.instanceId = i := hsound.entries_aligned hrow
    refine h.unseen before r rest hrs hB _ hrow rfl ?_
    rcases he with he | he <;> rw [he, ← hi]
    · exact (hsound.mem_returned (mem_entries hrow).1 full).1
    · exact (hsound.mem_returned (mem_entries hrow).1 full).2

/-- **Tenant isolation.**  From any start and in every history without a request that
brings them together, `B` is isolated from `A`.  Isolation needs as much of the
decisions, and of the reads that return a whole chain. -/
theorem tenant_isolation (signer : Signer) (now : String) (models agents policies : List String) (A B : String)
    (rs : List Request) :
    (Lockstep.Along (step signer) (Harmless A B) (start now models agents policies) rs →
      Isolated signer A B (start now models agents policies) rs) ∧
    (Isolated signer A B (start now models agents policies) rs →
      (A = defaultTenant ∨ ∀ i, (A, i) ∉ (after signer (start now models agents policies) rs).decided) ∧
      ∀ before r rest, rs = before ++ r :: rest → r.tenantId = B → ∀ i full,
        r.endpoint = .chain i full ∨ r.endpoint = .exportPackage i full →
          (A, i) ∉ (after signer (start now models agents policies) before).decided) :=
  ⟨isolated_of_harmless (start_sound ..) rfl, fun h => h.necessary (start_sound ..)⟩

/-! One decision, and one request for a chain. -/

theorem noFeatures_nodup : ∀ f ∈ ([] : List (List (String × String))), (f.map Prod.fst).Nodup := by simp

theorem noMembers_wf : (Json.obj []).wf = true := rfl

/-- The body of a decision on the loan. -/
def loanBody : DecisionRequest where
  instanceId := "loan_1"
  fromState := "pending"
  toState := "approved"
  modelVersion := some "v1.0.0"
  agentVersion := none
  policyVersion := none
  reasonCode := some "SCORE_ABOVE_THRESHOLD"
  policyRule := some "credit_policy_v2.rule_7"
  rawInputs := [("credit_score", .int 742)]
  featureContributions := []
  thresholdUsed := some "700"
  metadata := []
  determinismMode := "strict_deterministic"
  randomSeed := none
  externalCalls := none
  features_nodup := noFeatures_nodup
  metadata_wf := noMembers_wf

/-- A server that has approved its versions. -/
def loanServer : Server := start "2026-01-01T00:00:00Z" ["v1.0.0"] ["a1"] ["p1"]

/-- `POST /decision` on the loan. -/
def postLoan (tenantId : String) : Request := ⟨.system, tenantId, "trace-1", loanEnv, .decision loanBody⟩

/-- `GET /chain/{id}`. -/
def readChain (tenantId instanceId : String) : Request :=
  ⟨.auditor, tenantId, "trace-2", loanEnv, .chain instanceId false⟩

theorem loanServer_sound : loanServer.Sound loanSigner := start_sound ..

theorem loanBody_resolve :
    loanBody.resolve loanServer.engine.db = .ok (loanBody.args .strictDeterministic "v1.0.0" "a1" "p1") := rfl

theorem loanBody_recordable :
    Recordable loanServer.engine.db (loanBody.args .strictDeterministic "v1.0.0" "a1" "p1") where
  modelVersion := by decide
  agentVersion := by decide
  policyVersion := by decide
  metadata := rfl
  rawInputs := rfl
  seed := fun h => by cases h
  calls := fun h => by cases h
  instanceId_ne := (by decide : "loan_1" ≠ "")
  fromState_ne := (by decide : "pending" ≠ "")
  toState_ne := (by decide : "approved" ≠ "")
  reasonCode_ne := (by decide : "SCORE_ABOVE_THRESHOLD" ≠ "")
  policyRule_ne := (by decide : "credit_policy_v2.rule_7" ≠ "")
  modelVersion_ne := (by decide : "v1.0.0" ≠ "")
  agentVersion_ne := (by decide : "a1" ≠ "")
  policyVersion_ne := (by decide : "p1" ≠ "")

/-- The decision is recorded, whoever posts it. -/
theorem postLoan_leaves (tenantId : String) : ∃ p : ProofV1, p.instanceId = "loan_1" ∧
    Leaves loanSigner loanServer (loanServer.step loanSigner (postLoan tenantId)).2 tenantId (some p) := by
  have hinv : Inv loanSigner loanServer.engine.db [] := Inv.fresh.of_ledger_eq rfl
  obtain ⟨p, -, hp⟩ := hinv.record_returns loanEnv loanBody_recordable rfl (by simp [onInstance])
  have hadded : loanServer.added loanSigner (postLoan tenantId) = some p := by
    have hrec : loanBody.recorded loanSigner loanEnv loanServer.engine.db = some p := by
      simp only [DecisionRequest.recorded, loanBody_resolve, hp]
      rfl
    rw [added, if_pos (by simp [postLoan, Endpoint.allowed])]
    exact hrec
  have hleaves := step_leaves loanServer_sound (postLoan tenantId)
  rw [hadded] at hleaves
  obtain ⟨-, body, he, hi⟩ := loanServer_sound.added_takes hadded
  obtain rfl := Endpoint.decision.inj he
  exact ⟨p, hi, hleaves⟩

section

variable (s : Server) (r : Request) (tenantId i : String)

theorem answers_readChain : answers signer tenantId s [readChain tenantId i] =
    [(readChain tenantId i, getChain s.engine.db "trace-2" i false)] := by
  have hread : (readChain tenantId i).isReadOf tenantId = true := by simp [Request.isReadOf, readChain, Endpoint.reads]
  rw [answers, Lockstep.outputs, if_pos hread]
  rfl

theorem answers_skip {rs : List Request} (h : r.isReadOf tenantId = false) :
    answers signer tenantId s (r :: rs) = answers signer tenantId (s.step signer r).2 rs := by
  rw [answers, Lockstep.outputs, h]
  rfl

/-- A chain is read of what the request before has left. -/
theorem after_readChain : after signer s [r, readChain tenantId i] = (s.step signer r).2 := rfl

theorem along_readChain {Ok : Server → Request → Prop} (hr : Ok s r)
    (hread : Ok (s.step signer r).2 (readChain tenantId i)) :
    Lockstep.Along (step signer) Ok s [r, readChain tenantId i] := ⟨hr, hread, trivial⟩

theorem isReadOf_postLoan (poster : String) : (postLoan poster).isReadOf tenantId = false := by
  simp [Request.isReadOf, postLoan, Endpoint.reads]

end

/-- The default tenant decides on one loan, another tenant asks for the chain of
another one. -/
theorem tenant_isolation_default :
    (after loanSigner loanServer [postLoan "default", readChain "rival" "loan_2"]).decided = [("default", "loan_1")] ∧
    Isolated loanSigner "default" "rival" loanServer [postLoan "default", readChain "rival" "loan_2"] := by
  obtain ⟨p, hi, hleaves⟩ := postLoan_leaves "default"
  have hstart : loanServer.decided = [] := rfl
  have hdecided := hleaves.decided
  rw [hstart, List.nil_append, Option.toList_some, List.map_singleton, hi] at hdecided
  have hpost : Harmless "default" "rival" loanServer (postLoan "default") :=
    ⟨fun _ => .inl rfl, fun h => absurd h (by decide : "default" ≠ "rival")⟩
  have hread : Harmless "default" "rival" (loanServer.step loanSigner (postLoan "default")).2
      (readChain "rival" "loan_2") := by
    refine ⟨fun h => absurd h Bool.false_ne_true, ?_⟩
    rintro - i ⟨⟩
    rw [hdecided]
    decide
  exact ⟨by rw [after_readChain, hdecided],
    (tenant_isolation loanSigner _ _ _ _ "default" "rival" _).1 (along_readChain _ _ _ _ hpost hread)⟩

theorem getChain_empty {db : Db} {i : String} (h : db.getLedgerChain i defaultTenant = []) (traceId : String) :
    ∃ content, getChain db traceId i false = .json 404 content := by
  rw [getChain, h]
  exact ⟨_, rfl⟩

theorem getChain_nonempty {db : Db} {i : String} (h : db.getLedgerChain i defaultTenant ≠ []) (traceId : String) :
    ∃ content, getChain db traceId i false = .json 200 content := by
  obtain ⟨r, rest, hrows⟩ := List.exists_cons_of_ne_nil h
  rw [getChain, hrows, List.head?_cons, List.getLast?_eq_some_getLast (List.cons_ne_nil _ _)]
  exact ⟨_, rfl⟩

theorem postLoan_filtered : ([postLoan "acme", readChain "rival" "loan_1"].filter fun r => !r.isDecisionOf "acme") =
    [readChain "rival" "loan_1"] := by
  have hpost : (postLoan "acme").isDecisionOf "acme" = true := rfl
  have hread : (readChain "rival" "loan_1").isDecisionOf "acme" = false := rfl
  simp [hpost, hread]

/-- **A tenant reads what another one has decided**, and it is not stored under
that one. -/
theorem rival_reads_acme :
    (∃ content, answers loanSigner "rival" loanServer [postLoan "acme", readChain "rival" "loan_1"] =
      [(readChain "rival" "loan_1", .json 200 content)]) ∧
    (∃ content, answers loanSigner "rival" loanServer
        ([postLoan "acme", readChain "rival" "loan_1"].filter fun r => !r.isDecisionOf "acme") =
      [(readChain "rival" "loan_1", .json 404 content)]) ∧
    (∃ e ∈ (after loanSigner loanServer [postLoan "acme", readChain "rival" "loan_1"]).entries,
      e.2 = ("acme", "loan_1") ∧ e.1.tenantId = "default") ∧
    ¬ Isolated loanSigner "acme" "rival" loanServer [postLoan "acme", readChain "rival" "loan_1"] := by
  obtain ⟨p, hi, hleaves⟩ := postLoan_leaves "acme"
  have hledger := hleaves.ledger
  have hdecided := hleaves.decided
  have hstart : loanServer.engine.db.ledger = [] ∧ loanServer.decided = [] := ⟨rfl, rfl⟩
  rw [hstart.1, List.nil_append, Option.toList_some, List.map_singleton] at hledger
  rw [hstart.2, List.nil_append, Option.toList_some, List.map_singleton] at hdecided
  have hentry : (p.row, "acme", p.instanceId) ∈
      (after loanSigner loanServer [postLoan "acme", readChain "rival" "loan_1"]).entries := by
    rw [after_readChain, entries, hledger, hdecided]
    exact List.mem_singleton_self _
  have hrow : p.row.tenantId = "default" ∧ p.row.instanceId = p.instanceId := ⟨rfl, rfl⟩
  have hmem : p.row ∈ (loanServer.step loanSigner (postLoan "acme")).2.engine.db.ledger := by
    rw [hledger]
    exact List.mem_singleton_self _
  have hchain := (hleaves.sound.mem_returned hmem false).1
  rw [hrow.2, hi] at hchain
  obtain ⟨c, hc⟩ := getChain_nonempty (List.ne_nil_of_mem hchain) "trace-2"
  have hempty : loanServer.engine.db.getLedgerChain "loan_1" defaultTenant = [] := rfl
  obtain ⟨e, he⟩ := getChain_empty hempty "trace-2"
  refine ⟨⟨c, ?_⟩, ⟨e, ?_⟩, ⟨_, hentry, by rw [hi], hrow.1⟩, fun h => ?_⟩
  · rw [answers_skip _ _ _ (isReadOf_postLoan _ _), answers_readChain, hc]
  · rw [postLoan_filtered, answers_readChain, he]
  · have hstored : p.row.tenantId = "acme" := h.stored _ hentry rfl
    exact absurd (hrow.1.symm.trans hstored) (by decide)

end Server

end ProvableAi
