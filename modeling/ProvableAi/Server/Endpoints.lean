/-
# The decision endpoints

`server/main.py`: `POST /decision`, `GET /proof/{id}`, `GET /chain/{id}` and
`GET /proof/export/{id}`, with the requests that configure the engine they
share.  A server is one `GovernanceEngine`; a request comes with the role of
its key, the tenant of its `X-Tenant-Id` header and a trace id.

`request.state.tenant_id` goes into the log lines and nowhere else: no handler
below passes the tenant on, so every call works on the default one.

What the configuring endpoints send back is left out but for what the engine
returned; logs and metrics are left out.
-/

import ProvableAi.Engine.Runs

namespace ProvableAi

/-! ### Errors as responses -/

/-- The base class by which `record_decision` of the server tells an exception. -/
inductive ErrorFamily where
  | governance
  | signing
  | chain
  | zorynex
  | other
  deriving DecidableEq

namespace PyErr

/-- The family of an exception. -/
def family : PyErr → ErrorFamily
  | unauthorizedModelVersion .. => .governance
  | policyViolation .. => .governance
  | agentVersionMismatch .. => .governance
  | kmsUnavailable .. => .signing
  | signingFailed .. => .signing
  | chainBroken .. => .chain
  | sequenceGap .. => .chain
  | duplicateSequenceId _ => .chain
  | ledgerError _ => .zorynex
  | canonicalJsonError .. => .zorynex
  | _ => .other

/-- `e.code` of a `ZorynexError`. -/
def code : PyErr → String
  | unauthorizedModelVersion .. => "UNAUTHORIZED_MODEL_VERSION"
  | policyViolation .. => "POLICY_VIOLATION"
  | agentVersionMismatch .. => "AGENT_VERSION_MISMATCH"
  | kmsUnavailable .. => "KMS_UNAVAILABLE"
  | signingFailed .. => "SIGNING_FAILED"
  | chainBroken .. => "CHAIN_BROKEN"
  | sequenceGap .. => "SEQUENCE_GAP"
  | duplicateSequenceId _ => "DUPLICATE_SEQUENCE_ID"
  | ledgerError _ => "LEDGER_ERROR"
  | canonicalJsonError .. => "CANONICAL_JSON_ERROR"
  | _ => "ZORYNEX_ERROR"

/-- `e.context` of a `GovernanceError`. -/
def context : PyErr → Json
  | unauthorizedModelVersion v vs =>
    .obj [("model_version", .str v), ("approved_versions", .arr (vs.map .str)), ("tenant_id", .null)]
  | policyViolation rule ctx => .obj [("policy_rule", .str rule), ("decision_context", .str ctx), ("tenant_id", .null)]
  | agentVersionMismatch v w => .obj [("agent_version", .str v), ("approved_version", .str w)]
  | _ => .obj []

end PyErr

/-- A response: JSON, or what the engine returned to a configuring request. -/
inductive Response where
  | json (status : ℕ) (content : Json)
  | outcomes (results : List Outcome)

namespace Response

/-- `HTTPException(status_code, detail)`. -/
def httpException (status : ℕ) (detail : Json) : Response := .json status (.obj [("detail", detail)])

/-- A detail with an error and a message. -/
def failed (status : ℕ) (error message : String) (more : List (String × Json)) : Response :=
  httpException status (.obj ([("error", .str error), ("message", .str message)] ++ more))

/-- `generic_error_handler`. -/
def internalError (traceId : String) : Response :=
  .json 500 (.obj [("error", .str "INTERNAL_ERROR"), ("message", .str "An unexpected error occurred"),
    ("trace_id", .str traceId)])

end Response

/-! ### `POST /decision` -/

/-- `DecisionRequest`. -/
structure DecisionRequest where
  instanceId : String
  fromState : String
  toState : String
  modelVersion : Option String
  agentVersion : Option String
  policyVersion : Option String
  reasonCode : Option String
  policyRule : Option String
  rawInputs : List (String × Json)
  featureContributions : List (List (String × String))
  thresholdUsed : Option String
  metadata : List (String × Json)
  determinismMode : String
  randomSeed : Option String
  externalCalls : Option (List Json)
  features_nodup : ∀ f ∈ featureContributions, (f.map Prod.fst).Nodup
  metadata_wf : (Json.obj metadata).wf = true

/-- `given or first`: the text of the body, else the first approved one. -/
def givenOr (given : Option String) (first : Option String) : Option String :=
  match given with
  | some v => if v = "" then first else some v
  | none => first

namespace DecisionRequest

theorem some_nodup {fs : List (List (String × String))} (h : ∀ f ∈ fs, (f.map Prod.fst).Nodup) :
    ∀ gs ∈ some fs, ∀ f ∈ gs, (f.map Prod.fst).Nodup := by
  intro gs hgs
  obtain rfl := Option.some.inj hgs
  exact h

/-- The arguments of the call, once the versions are resolved. -/
def args (body : DecisionRequest) (mode : DeterminismMode) (modelVersion agentVersion policyVersion : String) :
    DecisionArgs where
  instanceId := body.instanceId
  fromState := body.fromState
  toState := body.toState
  modelVersion := modelVersion
  agentVersion := agentVersion
  policyVersion := policyVersion
  reasonCode := (givenOr body.reasonCode none).getD "DECISION"
  policyRule := (givenOr body.policyRule none).getD (policyVersion ++ ".default")
  rawInputs := some (.obj body.rawInputs)
  featureContributions := some body.featureContributions
  thresholdUsed := body.thresholdUsed
  metadata := some (Json.toPyMembers body.metadata)
  determinismMode := mode
  randomSeed := body.randomSeed
  externalCalls := body.externalCalls.map fun calls => calls.map some
  features_nodup := some_nodup body.features_nodup
  metadata_wf := toPy_wf body.metadata_wf

/-- The handler up to the call of the engine: the mode, and the versions, by default
the first approved ones. -/
def resolve (body : DecisionRequest) (db : Db) : Except Response DecisionArgs :=
  match DeterminismMode.ofValue body.determinismMode with
  | none => .error (.httpException 400 (.str ("Invalid determinism_mode '" ++ body.determinismMode ++ "'. " ++
      "Valid: strict_deterministic, replay_with_seed, replay_with_recorded_io")))
  | some mode =>
    match givenOr body.modelVersion db.modelVersions.head?, givenOr body.agentVersion db.agentVersions.head?,
        givenOr body.policyVersion db.policyVersions.head? with
    | none, _, _ => .error (.failed 422 "NO_APPROVED_MODEL"
        "model_version not provided and no approved models found."
        [("hint", .str "Approve a model via POST /governance/model first.")])
    | some _, none, _ => .error (.failed 422 "NO_APPROVED_AGENT"
        "agent_version not provided and no approved agents found."
        [("hint", .str "Approve an agent via POST /governance/agent first.")])
    | some _, some _, none => .error (.failed 422 "NO_APPROVED_POLICY"
        "policy_version not provided and no approved policies found."
        [("hint", .str "Approve a policy via POST /governance/policy first.")])
    | some m, some a, some p => .ok (body.args mode m a p)

end DecisionRequest

/-- The `except` clauses of the handler. -/
def decisionError (traceId : String) (e : PyErr) : Response :=
  match e.family with
  | .governance => .failed 422 e.code e.str [("context", e.context)]
  | .signing => .failed 503 e.code e.str []
  | .chain => .failed 409 e.code e.str []
  | .zorynex => .failed 400 e.code e.str []
  | .other => .internalError traceId

/-- `DecisionResponse`. -/
def decisionResponse (traceId : String) (p : ProofV1) : Response :=
  .json 200 (.obj [("proof_id", .str p.proofId), ("sequence_id", .int p.ledger.sequenceId),
    ("instance_id", .str p.instanceId), ("current_hash", .str p.ledger.currentHash.text),
    ("proof_url", .str ("/proof/" ++ p.instanceId)), ("trace_id", .str traceId)])

/-- `record_decision` of the server: the response, the tables, and whether a decision
was recorded. -/
def postDecision (signer : Signer) (env : CallEnv) (traceId : String) (db : Db) (body : DecisionRequest) :
    Response × Db × Bool :=
  match body.resolve db with
  | .error r => (r, db, false)
  | .ok a =>
    match recordDecision db signer env a with
    | (.ok p, db) => (decisionResponse traceId p, db, true)
    | (.error e, db) => (decisionError traceId e, db, false)

/-! ### The reading endpoints -/

/-- `proof_data`: the stored proof, an empty object where there is none. -/
def LedgerRow.proofData (r : LedgerRow) : Json :=
  if r.hasProof then (loads r.proofJson).getD (.obj []) else .obj []

/-- `get_proof`. -/
def getProof (db : Db) (traceId instanceId : String) (sequenceId : Option ℤ) (verbose : Bool) : Response :=
  match db.getLedgerEntry instanceId sequenceId defaultTenant with
  | none =>
    let place := match sequenceId with
      | some n => if n = 0 then " (no decisions recorded yet)" else " at sequence_id=" ++ toString n
      | none => " (no decisions recorded yet)"
    .failed 404 "PROOF_NOT_FOUND" ("No proof found for instance '" ++ instanceId ++ "'" ++ place)
      [("hint", .str "Record a decision first via POST /decision, then retrieve it here.")]
  | some entry =>
    let proofId := computeProofId entry.currentHash entry.sequenceId
    if verbose then
      .json 200 (.obj [("proof_id", .str proofId), ("instance_id", .str instanceId),
        ("sequence_id", .int entry.sequenceId), ("proof", entry.proofData), ("trace_id", .str traceId)])
    else
      .json 200 (.obj [("proof_id", .str proofId), ("instance_id", .str instanceId),
        ("sequence_id", .int entry.sequenceId), ("from_state", .str entry.fromState), ("to_state", .str entry.toState),
        ("current_hash", .str entry.currentHash), ("previous_hash", .str entry.previousHash),
        ("timestamp", .str entry.timestamp), ("model_version", .str entry.modelVersion),
        ("policy_version", .str entry.policyVersion), ("signature_key_id", .str entry.keyId),
        ("chain_position", .str (toString entry.sequenceId ++ " of " ++
          toString (maxSequenceId db.ledger defaultTenant instanceId))),
        ("verify_url", .str "/verify"), ("full_proof_url", .str ("/proof/" ++ instanceId ++ "?verbose=true")),
        ("trace_id", .str traceId)])

/-- `list({…})` of the texts that are not empty.  A set has no order; here the first
of equal texts stays. -/
def distinct (texts : List String) : Json := .arr (((texts.filter (· ≠ "")).eraseDups).map .str)

/-- One item of the full chain. -/
def chainItem (entry : LedgerRow) : Json :=
  .obj [("sequence_id", .int entry.sequenceId), ("proof_id", .str (computeProofId entry.currentHash entry.sequenceId)),
    ("from_state", .str entry.fromState), ("to_state", .str entry.toState), ("current_hash", .str entry.currentHash),
    ("timestamp", .str entry.timestamp), ("proof", entry.proofData)]

/-- `get_chain`. -/
def getChain (db : Db) (traceId instanceId : String) (full : Bool) : Response :=
  let entries := db.getLedgerChain instanceId defaultTenant
  match entries.head?, entries.getLast? with
  | some first, some last =>
    if full then
      .json 200 (.obj [("instance_id", .str instanceId), ("chain_length", .int entries.length),
        ("chain", .arr (entries.map chainItem)), ("trace_id", .str traceId)])
    else
      .json 200 (.obj [("instance_id", .str instanceId), ("chain_length", .int entries.length),
        ("current_state", .str last.toState), ("initial_state", .str first.fromState),
        ("latest_hash", .str last.currentHash), ("first_timestamp", .str first.timestamp),
        ("last_timestamp", .str last.timestamp), ("model_versions", distinct (entries.map LedgerRow.modelVersion)),
        ("policy_versions", distinct (entries.map LedgerRow.policyVersion)),
        ("chain_valid_url", .str "/audit/chain-verify"), ("export_url", .str ("/proof/export/" ++ instanceId)),
        ("full_chain_url", .str ("/chain/" ++ instanceId ++ "?full=true")), ("trace_id", .str traceId)])
  | _, _ =>
    .failed 404 "CHAIN_NOT_FOUND" ("No decision chain found for instance '" ++ instanceId ++ "'.")
      [("hint", .str "Record at least one decision via POST /decision to create a chain.")]

/-- `engine._instances[instance_id] = …` of the export, for an instance that the engine
does not know. -/
def learnInstance (s : Engine) (instanceId : String) (last : LedgerRow) : Except PyErr Engine :=
  if (s.instances.lookup instanceId).isSome ∨ last.hasProof = false then .ok s
  else do
    let pd ← last.loadProof
    match (pd.get? "decision").bind fun d => d.get? "to_state", pd.get? "governance" with
    | some state, some governance => do
      let policy ← governance.getD "policy_version" (.str "")
      pure { s with instances := (instanceId, state, policy.pyStr) :: s.instances }
    | none, _ => .error (.keyError "to_state")
    | _, none => .error (.keyError "governance")

/-- The metadata that is sent instead of the package. -/
def exportSummary (traceId instanceId : String) (package : Json) : Json :=
  let proof := (package.get? "proof").getD (.obj [])
  let count : ℕ := match proof.get? "ledger" with
    | some (.arr entries) => entries.length
    | _ => 0
  .obj [("instance_id", .str instanceId), ("proof_count", .int count),
    ("package_hash", (package.get? "package_hash").getD (.str "")),
    ("instance_root", (proof.get? "instance_root").getD (.str "")),
    ("signature", (package.get? "signature").getD (.str "")), ("public_key", (package.get? "public_key").getD (.str "")),
    ("valid", (package.get? "valid").getD (.bool true)),
    ("full_package_url", .str ("/proof/export/" ++ instanceId ++ "?inline=true")),
    ("verify_ui_url", .str ("/verify-ui/" ++ instanceId)),
    ("verify_cli", .str "python verify/verify_package.py <proof.json>"),
    ("verify_hint", .str ("Download full package via ?inline=true, then drag into /verify-ui or run the CLI verifier.")),
    ("trace_id", .str traceId)]

/-- The `except` clauses of the export. -/
def exportError (e : PyErr) : Response :=
  if e.family = .other then .failed 500 "EXPORT_ERROR" e.str [] else .failed 400 e.code e.str []

/-- `export_proof_package`. -/
def exportProofPackage (signer : Signer) (env : CallEnv) (traceId : String) (s : Engine) (instanceId : String)
    (inline : Bool) : Response × Engine :=
  match (s.db.getLedgerChain instanceId defaultTenant).getLast? with
  | none => (.failed 404 "INSTANCE_NOT_FOUND" ("No decisions recorded for instance '" ++ instanceId ++ "'.")
      [("hint", .str "Record decisions via POST /decision before exporting a proof package.")], s)
  | some last =>
    match learnInstance s instanceId last with
    | .error e => (exportError e, s)
    | .ok s =>
      match exportProof s.db signer env instanceId with
      | (.error e, db) => (exportError e, { s with db := db })
      | (.ok package, db) =>
        (.json 200 (if inline then package else exportSummary traceId instanceId package), { s with db := db })

/-! ### Configuring -/

/-- A request that configures the engine. -/
inductive Setup where
  | approveModel (name version : String)
  | approveAgent (name version : String)
  | approvePolicy (name version : String)
  | compile (spec : List (String × Json))
  | createInstance (instanceId : String) (protocolHash : Option String)
  | bootstrap

/-- `get_protocol`: the row and the parsed spec. -/
def Db.getProtocol (db : Db) (protocolHash : String) : Option (List (String × Json)) :=
  (db.protocols.find? fun r => r.protocolHash = protocolHash).map fun r =>
    [("protocol_hash", .str r.protocolHash), ("spec_json", .str r.specJson), ("active", .int (if r.active then 1 else 0)),
      ("created_at", .str r.createdAt), ("spec", (loads r.specJson).getD .null)]

/-- The protocol that `POST /instance/create` makes the active one. -/
def activate (s : Engine) : Option String → Option Engine
  | none => some s
  | some "" => some s
  | some hash => (s.db.getProtocol hash).map fun stored =>
    { s with
      active := some hash
      protocols := if (s.protocols.lookup hash).isSome then s.protocols else (hash, stored) :: s.protocols }

/-- The protocol of the demo. -/
def demoSpec : List (String × Json) :=
  let move (a b : String) : Json := .obj [("from_state", .str a), ("to_state", .str b)]
  [("states", .arr (["received", "under_review", "approved", "rejected", "funded"].map .str)),
    ("initial_state", .str "received"),
    ("transitions", .arr [move "received" "under_review", move "under_review" "approved",
      move "under_review" "rejected", move "approved" "funded"]),
    ("metadata", .obj [("workflow", .str "loan-decisioning-demo")])]

/-- The calls of a configuring request, one after the other. -/
def Engine.calls (signer : Signer) (s : Engine) (ops : List Op) : Response × Engine :=
  let (t, events) := s.run signer ops
  (.outcomes (events.map Event.outcome), t)

/-- What a configuring request does. -/
def Setup.run (signer : Signer) (now traceId : String) (s : Engine) : Setup → Response × Engine
  | approveModel name version => s.calls signer [.addApprovedModel now version name]
  | approveAgent name version => s.calls signer [.addApprovedAgent now version name]
  | approvePolicy name version => s.calls signer [.addApprovedPolicy now version name]
  | compile spec => s.calls signer [.compile now spec]
  | createInstance instanceId protocolHash =>
    match activate s protocolHash with
    | none => (.failed 404 "PROTOCOL_NOT_FOUND" ("Protocol " ++ slice 16 (protocolHash.getD "") ++
        "... not found. Compile it first via POST /protocol/compile.") [], s)
    | some s => s.calls signer [.createInstance instanceId]
  | bootstrap =>
    s.calls signer [.addApprovedModel now "credit-model-v1" "credit_model",
      .addApprovedAgent now "underwriter-v1" "underwriter",
      .addApprovedPolicy now "credit-policy-v1" "credit_policy", .compile now demoSpec,
      .createInstance ("demo-loan-" ++ slice 8 traceId)]

/-! ### Requests -/

/-- The role of an API key. -/
inductive Role where
  | admin
  | auditor
  | system
  deriving DecidableEq

/-- `role.value`. -/
def Role.value : Role → String
  | admin => "admin"
  | auditor => "auditor"
  | system => "system"

/-- An endpoint with its parameters. -/
inductive Endpoint where
  | setup (what : Setup)
  | decision (body : DecisionRequest)
  | proof (instanceId : String) (sequenceId : Option ℤ) (verbose : Bool)
  | chain (instanceId : String) (full : Bool)
  | exportPackage (instanceId : String) (inline : Bool)

/-- `require_role(…)`, sorted. -/
def Endpoint.allowed : Endpoint → List Role
  | setup (.createInstance ..) => [.admin, .system]
  | setup _ => [.admin]
  | decision _ => [.admin, .system]
  | _ => [.admin, .auditor, .system]

/-- An authenticated request. -/
structure Request where
  role : Role
  /-- `request.state.tenant_id`. -/
  tenantId : String
  traceId : String
  env : CallEnv
  endpoint : Endpoint

/-- The 403 of `require_role`. -/
def Response.forbidden (role : Role) (allowed : List Role) : Response :=
  .failed 403 "FORBIDDEN" ("Role '" ++ role.value ++ "' cannot perform this action.")
    [("your_role", .str role.value), ("required_roles", .arr (allowed.map fun r => .str r.value))]

/-- A server.  `decided` is a record for the statements, which no handler reads: the
tenant and the instance of every decision that was recorded, oldest first. -/
structure Server where
  engine : Engine
  decided : List (String × String)

namespace Server

/-- `_seed_governance` over a fresh database: the versions of the environment. -/
def start (now : String) (models agents policies : List String) : Server where
  engine :=
    let db := models.foldl (fun db m => db.addApprovedModel now m "") Db.fresh
    let db := agents.foldl (fun db a => db.addApprovedAgent now a "") db
    let db := policies.foldl (fun db p => db.addApprovedPolicy now p "") db
    { Engine.fresh with db := db }
  decided := []

/-- A request that has passed `require_role`. -/
def handle (signer : Signer) (s : Server) (r : Request) : Response × Server :=
  match r.endpoint with
  | .setup what =>
    let (response, engine) := what.run signer r.env.now.text r.traceId s.engine
    (response, { s with engine := engine })
  | .decision body =>
    let (response, db, recorded) := postDecision signer r.env r.traceId s.engine.db body
    (response, ⟨{ s.engine with db := db },
      if recorded then s.decided ++ [(r.tenantId, body.instanceId)] else s.decided⟩)
  | .proof instanceId sequenceId verbose =>
    (getProof s.engine.db r.traceId instanceId sequenceId verbose, s)
  | .chain instanceId full => (getChain s.engine.db r.traceId instanceId full, s)
  | .exportPackage instanceId inline =>
    let (response, engine) := exportProofPackage signer r.env r.traceId s.engine instanceId inline
    (response, { s with engine := engine })

/-- One request. -/
def step (signer : Signer) (s : Server) (r : Request) : Response × Server :=
  if r.role ∈ r.endpoint.allowed then s.handle signer r else (.forbidden r.role r.endpoint.allowed, s)

end Server

end ProvableAi
