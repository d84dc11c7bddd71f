/-
# Recording a decision

`GovernanceEngine.record_decision` in `engine.py`: governance and metadata
checks, the place in the chain, the models, the hash, the signature, and the
append to the ledger.

The signer has one key (`Signer`: `EnvSigner`, or a KMS key); `sign_hash` may
raise, which is an input of the call together with the clock (`CallEnv`).  A
Python argument that only goes through `json.dumps` is the JSON value written
for it, `none` where `json.dumps` raises.

`buildProof_ok` is what the rest uses: a proof that is built is well formed,
carries the hash of its payload and the signer's signature over it, and stands
at the end of the instance's chain.  `buildProof_isOk_iff` says when one is
built: exactly if the arguments pass the checks listed in `Recordable`.
-/

import ProvableAi.Verifier
import ProvableAi.Storage.Tables

namespace ProvableAi

open HashChain

/-! ### Signer, clock and arguments -/

/-- A signer with one key: `get_key_id`, `get_public_key`, and `sign_hash` where
it does not raise. -/
structure Signer where
  keyId : String
  publicKey : Bytes
  sign : Bytes → Bytes
  keyId_ne : isBlank keyId = false
  publicKey_length : publicKey.length = 32
  sign_length : ∀ m, (sign m).length = 64

/-- The key verifies what the signer signs. -/
def Signer.Honest (ed : Ed25519) (s : Signer) : Prop := ∀ m, ed s.publicKey m (s.sign m) = true

/-- What `_utc_now()` returns: `strftime("%Y-%m-%dT%H:%M:%SZ")`. -/
structure UtcNow where
  text : String
  length : 20 ≤ text.length
  utc : endsWithZ text = true

/-- What a call takes from its surroundings: the clock, and the exception of
`sign_hash` if it raises one. -/
structure CallEnv where
  now : UtcNow
  signFault : Option PyErr

/-- The arguments of `record_decision`. -/
structure DecisionArgs where
  instanceId : String
  fromState : String
  toState : String
  modelVersion : String
  agentVersion : String
  policyVersion : String
  reasonCode : String
  policyRule : String
  rawInputs : Option Json
  featureContributions : Option (List (List (String × String)))
  thresholdUsed : Option String
  metadata : Option (List (PyKey × PyVal))
  determinismMode : DeterminismMode
  randomSeed : Option String
  externalCalls : Option (List (Option Json))
  /-- A `dict` holds no key twice. -/
  features_nodup : ∀ fs ∈ featureContributions, ∀ f ∈ fs, (f.map Prod.fst).Nodup
  metadata_wf : ∀ md ∈ metadata, ∀ j, (PyVal.dict md).toJson? = some j → j.wf = true

/-- A JSON object without repeated keys is good metadata. -/
theorem toPy_wf {md : List (String × Json)} (h : (Json.obj md).wf = true) :
    ∀ m ∈ some (Json.toPyMembers md), ∀ j, (PyVal.dict m).toJson? = some j → j.wf = true := by
  intro m hm j hj
  obtain rfl := Option.some.inj hm
  have ht := Json.toJson?_toPy (.obj md)
  rw [Json.toPy, hj] at ht
  split_ifs at ht
  · rwa [Option.some.inj ht]

/-! ### The steps -/

/-- `_hash_raw`. -/
def hashRaw (data : Option Json) : Except PyErr String :=
  match data with
  | some j => .ok (sha256Hex (dumps j))
  | none => .error .typeError

/-- `_validate_governance`. -/
def validateGovernance (db : Db) (modelVersion agentVersion policyVersion : String) : Except PyErr Unit :=
  if modelVersion ∉ db.modelVersions then
    .error (.unauthorizedModelVersion modelVersion db.modelVersions)
  else if agentVersion ∉ db.agentVersions then
    .error (.agentVersionMismatch agentVersion (db.agentVersions.head?.getD "(none)"))
  else if policyVersion ∉ db.policyVersions then
    .error (.policyViolation policyVersion ("policy '" ++ policyVersion ++ "' is not active"))
  else .ok ()

/-- `not random_seed`. -/
def seedMissing (seed : Option String) : Bool := seed.all (· = "")

/-- `not external_calls`. -/
def callsMissing (calls : Option (List (Option Json))) : Bool := calls.all (·.isEmpty)

/-- Step 3 of `record_decision`; the second test of the seed is never reached
with a missing one. -/
def validateDeterminism (mode : DeterminismMode) (seed : Option String)
    (calls : Option (List (Option Json))) : Except PyErr Unit :=
  if mode = .replayWithSeed ∧ seedMissing seed then .error (.sequenceGap 0 0)
  else if mode = .replayWithRecordedIo ∧ callsMissing calls then
    .error (.policyViolation "determinism_mode" "external_calls required for REPLAY_WITH_RECORDED_IO mode")
  else if mode = .replayWithSeed ∧ seedMissing seed then
    .error (.policyViolation "determinism_mode" "random_seed required for REPLAY_WITH_SEED mode")
  else .ok ()

/-- `_get_previous_hash_and_sequence`. -/
def getPreviousHashAndSequence (db : Db) (instanceId : String) : Except PyErr (String × ℤ) :=
  match db.getLatestLedgerEntry instanceId defaultTenant with
  | none => .ok (genesisHash, 1)
  | some row =>
    if isValidHash row.currentHash then .ok (row.currentHash, row.sequenceId + 1)
    else .error (.chainBroken (row.sequenceId + 1) "(valid 64-char hex)" row.currentHash)

/-- A pydantic model, built or refused. -/
def validated {α : Type*} (o : Option α) : Except PyErr α :=
  match o with
  | some a => .ok a
  | none => .error .validationError

/-- `ext_calls_hash`: only the recorded-I/O mode hashes the calls. -/
def extCallsHash (mode : DeterminismMode) (calls : Option (List (Option Json))) :
    Except PyErr (Option String) :=
  if mode = .replayWithRecordedIo ∧ !callsMissing calls then
    (hashRaw (((calls.getD []).mapM id).map fun js => .obj [("calls", .arr js)])).map some
  else .ok none

/-- `self.signer.sign_hash(hash_bytes)`. -/
def signHash (signer : Signer) (env : CallEnv) (hashBytes : Bytes) : Except PyErr String :=
  match env.signFault with
  | some e => .error e
  | none => .ok (toHex (signer.sign hashBytes))

/-- The metadata as `model_dump` returns it, after `_validate_metadata`. -/
def validateMetadata (metadata : List (PyKey × PyVal)) : Except PyErr (List (String × Json)) :=
  match validatePayload "metadata" (.dict metadata), (PyVal.dict metadata).toJson? with
  | .error e, _ => .error e
  | .ok _, some (.obj kvs) => .ok kvs
  | .ok _, _ => .error .typeError

/-- The hashed part of a proof, before it is signed. -/
structure Draft where
  decision : Decision
  decisionContext : DecisionContext
  governance : Governance
  determinism : Determinism
  previousHash : String
  sequenceId : ℤ

/-- Steps 1 to 5: the checks and the models. -/
def draft (db : Db) (a : DecisionArgs) : Except PyErr Draft := do
  validateGovernance db a.modelVersion a.agentVersion a.policyVersion
  let metadata ← validateMetadata (a.metadata.getD [])
  validateDeterminism a.determinismMode a.randomSeed a.externalCalls
  let link ← getPreviousHashAndSequence db a.instanceId
  let decision ← validated (Decision.make a.fromState a.toState)
  let inputsHash ← hashRaw a.rawInputs
  let decisionContext ← validated (DecisionContext.make a.reasonCode a.policyRule a.modelVersion inputsHash
    (a.featureContributions.getD []) a.thresholdUsed metadata)
  let governance ← validated (Governance.make a.modelVersion a.agentVersion a.policyVersion)
  let externalCallsHash ← extCallsHash a.determinismMode a.externalCalls
  let determinism ← validated (Determinism.make a.determinismMode a.randomSeed externalCallsHash)
  pure ⟨decision, decisionContext, governance, determinism, link.1, link.2⟩

/-- Step 6: the hash. -/
def Draft.hash (d : Draft) : Except PyErr String := do
  let hashPayload ← buildHashPayload d.decision.dump d.decisionContext.dump d.governance.dump
    d.determinism.dump d.previousHash d.sequenceId
  canonicalHash hashPayload.toPy

/-- Steps 6 to 8: the hash, the signature and the proof. -/
def Draft.sign (d : Draft) (signer : Signer) (env : CallEnv) (instanceId : String) :
    Except PyErr ProofV1 := do
  let currentHash ← d.hash
  let signatureHex ← signHash signer env ((fromHex currentHash).getD [])
  let ledger ← validated (Ledger.make d.sequenceId d.previousHash currentHash env.now.text)
  let signature ← validated (Signature.make .ed25519 signer.keyId (toHex signer.publicKey) signatureHex)
  validated (ProofV1.make instanceId d.decision d.decisionContext d.governance d.determinism ledger signature)

/-- The proof that `record_decision` builds. -/
def buildProof (db : Db) (signer : Signer) (env : CallEnv) (a : DecisionArgs) : Except PyErr ProofV1 := do
  let d ← draft db a
  d.sign signer env a.instanceId

/-- `proof.model_dump(mode="json")` as `append_ledger_entry` reads it: a proof
has no `tenant_id`. -/
def ProofV1.toDict (p : ProofV1) : ProofDict where
  tenantId := none
  instanceId := p.instanceId
  sequenceId := p.ledger.sequenceId
  previousHash := p.ledger.previousHash.text
  currentHash := p.ledger.currentHash.text
  timestamp := p.ledger.timestamp
  fromState := p.decision.fromState
  toState := p.decision.toState
  modelVersion := p.governance.modelVersion
  agentVersion := p.governance.agentVersion
  policyVersion := p.governance.policyVersion
  metadata := .obj p.decisionContext.metadata
  signatureValue := p.signature.value.text
  keyId := p.signature.keyId
  type := some proofVersion
  json := p.dump

/-- `record_decision`. -/
def recordDecision (db : Db) (signer : Signer) (env : CallEnv) (a : DecisionArgs) :
    Except PyErr ProofV1 × Db :=
  match buildProof db signer env a with
  | .error e => (.error e, db)
  | .ok p =>
    match db.appendLedgerEntry env.now.text p.toDict with
    | (.error e, db) => (.error e, db)
    | (.ok _, db) => (.ok p, db)

/-! ### When each step returns -/

theorem validated_eq_ok {α : Type*} {o : Option α} {a : α} : validated o = .ok a ↔ o = some a := by
  cases o <;> simp [validated]

theorem hashRaw_eq_ok {d : Option Json} {h : String} :
    hashRaw d = .ok h ↔ ∃ j, d = some j ∧ sha256Hex (dumps j) = h := by
  cases d <;> simp [hashRaw]

theorem validateGovernance_eq_ok {db : Db} {m g p : String} :
    validateGovernance db m g p = .ok () ↔
      m ∈ db.modelVersions ∧ g ∈ db.agentVersions ∧ p ∈ db.policyVersions := by
  rw [validateGovernance]
  split_ifs with h₁ h₂ h₃
  · simp [h₁, h₂, h₃]
  · simp [h₃]
  · simp [h₂]
  · simp [h₁]

theorem validateDeterminism_eq_ok {m : DeterminismMode} {s : Option String}
    {c : Option (List (Option Json))} :
    validateDeterminism m s c = .ok () ↔
      (m = .replayWithSeed → seedMissing s = false) ∧
      (m = .replayWithRecordedIo → callsMissing c = false) := by
  rw [validateDeterminism]
  cases m <;> cases seedMissing s <;> cases callsMissing c <;> simp

theorem validateMetadata_eq_ok {md : List (PyKey × PyVal)} {kvs : List (String × Json)} :
    validateMetadata md = .ok kvs ↔ (PyVal.dict md).toJson? = some (.obj kvs) := by
  have hv := validatePayload_ok_iff (.dict md) "metadata"
  rw [validateMetadata]
  cases hj : (PyVal.dict md).toJson? with
  | none =>
    rw [hj] at hv
    cases hp : validatePayload "metadata" (.dict md) with
    | error e => simp
    | ok u => exact absurd (hv.1 hp) (by simp)
  | some j =>
    rw [hj] at hv
    rw [hv.2 rfl]
    obtain ⟨kvs', -, rfl⟩ := Option.map_eq_some_iff.1 hj
    simp

theorem signHash_eq_ok {signer : Signer} {env : CallEnv} {m : Bytes} {s : String} :
    signHash signer env m = .ok s ↔ env.signFault = none ∧ toHex (signer.sign m) = s := by
  rw [signHash]
  cases env.signFault <;> simp

/-- The hash of the external calls is there exactly in the recorded-I/O mode, and
is a digest. -/
theorem extCallsHash_eq_ok {m : DeterminismMode} {c : Option (List (Option Json))} {h : Option String}
    (hc : m = .replayWithRecordedIo → callsMissing c = false) (he : extCallsHash m c = .ok h) :
    if m = .replayWithRecordedIo then ∃ t, h = some (sha256Hex t) else h = none := by
  rw [extCallsHash] at he
  by_cases hm : m = .replayWithRecordedIo
  · rw [if_pos hm]
    rw [if_pos ⟨hm, by simp [hc hm]⟩] at he
    cases hr : hashRaw (((c.getD []).mapM id).map fun js => .obj [("calls", .arr js)]) with
    | error e => rw [hr] at he; cases he
    | ok x =>
      rw [hr] at he
      obtain ⟨j, -, rfl⟩ := hashRaw_eq_ok.1 hr
      exact ⟨dumps j, (Except.ok.inj he).symm⟩
  · rw [if_neg hm]
    rw [if_neg fun h => hm h.1] at he
    exact (Except.ok.inj he).symm

/-- The rows carry hashes as the schema writes them. -/
def HexRows (ledger : List LedgerRow) : Prop := ∀ r ∈ ledger, ∃ t : HexText 64, r.currentHash = t.text

/-- The hash of the last row of an instance, the genesis hash where there is
none. -/
def tipOf (db : Db) (instanceId : String) : String :=
  tip rowReading genesisHash (rowsOf db.ledger defaultTenant instanceId)

theorem tipOf_hex {db : Db} (hx : HexRows db.ledger) (i : String) : ∃ t : HexText 64, tipOf db i = t.text := by
  rw [tipOf, tip]
  cases hl : (rowsOf db.ledger defaultTenant i).getLast? with
  | none => exact ⟨⟨genesisHash, by decide, by decide, by decide⟩, rfl⟩
  | some r => exact hx r (mem_rowsOf.1 (List.mem_of_getLast? hl)).1

/-- The place in the chain: the last hash and the next number. -/
theorem getPreviousHashAndSequence_eq {db : Db} (hch : Chained db.ledger) (hx : HexRows db.ledger) (i : String) :
    getPreviousHashAndSequence db i =
      .ok (tipOf db i, (rowsOf db.ledger defaultTenant i).length + 1) := by
  have hmax := maxSequenceId_eq hch defaultTenant i
  rw [maxSequenceId] at hmax
  rw [getPreviousHashAndSequence, Db.getLatestLedgerEntry, tipOf, tip]
  rw [lastRow_eq hch] at hmax ⊢
  cases hl : (rowsOf db.ledger defaultTenant i).getLast? with
  | none => simp [List.getLast?_eq_none_iff.1 hl]
  | some r =>
    obtain ⟨t, ht⟩ := hx r (mem_rowsOf.1 (List.mem_of_getLast? hl)).1
    have hv : isValidHash r.currentHash = true := by simp [isValidHash, ht, t.text_length, t.text_hex]
    have hn : r.sequenceId = (rowsOf db.ledger defaultTenant i).length := by simpa [hl] using hmax
    simp [hv, hn, rowReading]

/-! ### The proof that is built -/

/-- The models carry the arguments `a`; the inputs are only hashed. -/
structure Carries (a : DecisionArgs) (d : Decision) (c : DecisionContext) (g : Governance) : Prop where
  fromState : d.fromState = a.fromState
  toState : d.toState = a.toState
  reasonCode : c.reasonCode = a.reasonCode
  policyRule : c.policyRule = a.policyRule
  contextModel : c.modelVersion = a.modelVersion
  inputsHash : ∃ raw, a.rawInputs = some raw ∧ c.inputsHash = .sha256 (dumps raw)
  features : c.featureContributions = a.featureContributions.getD []
  threshold : c.thresholdUsed = a.thresholdUsed
  metadata : (PyVal.dict (a.metadata.getD [])).toJson? = some (.obj c.metadata)
  modelVersion : g.modelVersion = a.modelVersion
  agentVersion : g.agentVersion = a.agentVersion
  policyVersion : g.policyVersion = a.policyVersion

/-- What holds of a proof that was built from the arguments `a`. -/
structure Built (signer : Signer) (a : DecisionArgs) (p : ProofV1) : Prop where
  instanceId : p.instanceId = a.instanceId
  carries : Carries a p.decision p.decisionContext p.governance
  floatFree : p.payload.floatFree = true
  wf : p.dump.wf = true
  hash_eq : p.ledger.currentHash.text = sha256Hex (dumps p.payload)
  publicKey : p.signature.publicKey.text = toHex signer.publicKey
  value : p.signature.value.text = toHex (signer.sign (sha256 (utf8 (dumps p.payload))))
  mode : p.determinism.mode = a.determinismMode
  seed : p.determinism.seed = a.randomSeed
  calls : if a.determinismMode = .replayWithRecordedIo then
      ∃ t, p.determinism.externalCallsHash = some (sha256Hex t) else p.determinism.externalCallsHash = none

/-- A draft that was made from the arguments `a`. -/
structure Drafted (db : Db) (a : DecisionArgs) (d : Draft) : Prop where
  carries : Carries a d.decision d.decisionContext d.governance
  floatFree : d.decisionContext.dump.floatFree = true
  wf : d.decisionContext.dump.wf = true
  modelVersion : d.decisionContext.modelVersion = d.governance.modelVersion
  mode : d.determinism.mode = a.determinismMode
  seed : d.determinism.seed = a.randomSeed
  calls : if a.determinismMode = .replayWithRecordedIo then
      ∃ t, d.determinism.externalCallsHash = some (sha256Hex t) else d.determinism.externalCallsHash = none
  previousHash : d.previousHash = tipOf db a.instanceId
  sequenceId : d.sequenceId = (rowsOf db.ledger defaultTenant a.instanceId).length + 1

theorem draft_ok {db : Db} (hch : Chained db.ledger) (hx : HexRows db.ledger) {a : DecisionArgs} {d : Draft}
    (h : draft db a = .ok d) : Drafted db a d := by
  simp only [draft, bind_eq_ok_iff, validated_eq_ok, hashRaw_eq_ok,
    getPreviousHashAndSequence_eq hch hx] at h
  obtain ⟨⟨⟩, -, md, hmd, ⟨⟩, hdet, link, hlink, dec, hdec, _, ⟨raw, hraw, rfl⟩, ctx, hctx, gov, hgov, ext, hext,
    det, hdetm, hd⟩ := h
  obtain rfl := Except.ok.inj hlink
  obtain rfl := Except.ok.inj hd
  have hjson := validateMetadata_eq_ok.1 hmd
  have hdet := validateDeterminism_eq_ok.1 hdet
  have hcalls := extCallsHash_eq_ok hdet.2 hext
  -- the fields of the models are the arguments
  obtain ⟨hfrom, hto⟩ := Decision.make_eq_some.1 hdec
  obtain ⟨hreason, hrule, hmodel, hinputs, hfeatures, hthreshold, hmeta⟩ := DecisionContext.make_eq_some.1 hctx
  obtain ⟨hgmodel, hgagent, hgpolicy⟩ := Governance.make_eq_some.1 hgov
  obtain ⟨hmode, hseed, rfl⟩ := Determinism.make_eq_some.1 hdetm
  have hinputs : ctx.inputsHash = .sha256 (dumps raw) :=
    Option.some.inj (hinputs.symm.trans (HexText.make_text (.sha256 (dumps raw))))
  have hwf : (Json.obj md).wf = true := by
    cases ham : a.metadata with
    | none =>
      rw [ham] at hjson
      obtain rfl : md = [] := by simpa [PyVal.toJson?, PyVal.toMembers?] using hjson.symm
      rfl
    | some m =>
      rw [ham] at hjson
      exact a.metadata_wf m ham _ hjson
  have hnodup : ∀ f ∈ a.featureContributions.getD [], (f.map Prod.fst).Nodup := by
    cases hfs : a.featureContributions with
    | none => simp
    | some fs => exact a.features_nodup fs hfs
  exact {
    carries := ⟨hfrom, hto, hreason, hrule, hmodel, ⟨raw, hraw, hinputs⟩, hfeatures, hthreshold, hmeta ▸ hjson,
      hgmodel, hgagent, hgpolicy⟩
    floatFree := DecisionContext.dump_floatFree.2 (hmeta ▸ PyVal.floatFree_of_toJson? _ _ hjson)
    wf := DecisionContext.dump_wf.2 ⟨hfeatures ▸ hnodup, hmeta ▸ hwf⟩
    modelVersion := hmodel.trans hgmodel.symm
    mode := hmode
    seed := hseed
    calls := hcalls
    previousHash := rfl
    sequenceId := rfl }

/-- The hashed payload of a draft. -/
def Draft.payload (d : Draft) : Json :=
  hashPayload d.decision.dump d.decisionContext.dump d.governance.dump d.determinism.dump d.previousHash d.sequenceId

/-- The hash that is signed, where the payload is free of floats. -/
theorem Draft.hash_eq_ok {d : Draft} {x : String} :
    d.hash = .ok x ↔ d.payload.floatFree = true ∧ x = sha256Hex (dumps d.payload) := buildHashPayload_hash

theorem Signer.publicKey_make (s : Signer) :
    ∃ t, HexText.make 64 (toHex s.publicKey) = some t ∧ t.text = toHex s.publicKey :=
  HexText.make_toHex (by rw [s.publicKey_length]) (by decide)

theorem Signer.sign_make (s : Signer) (m : Bytes) :
    ∃ t, HexText.make 128 (toHex (s.sign m)) = some t ∧ t.text = toHex (s.sign m) :=
  HexText.make_toHex (by rw [s.sign_length]) (by decide)

/-- What `sign` adds to a draft. -/
structure Draft.Signed (d : Draft) (signer : Signer) (p : ProofV1) : Prop where
  decision : p.decision = d.decision
  decisionContext : p.decisionContext = d.decisionContext
  governance : p.governance = d.governance
  determinism : p.determinism = d.determinism
  previousHash : p.ledger.previousHash.text = d.previousHash
  sequenceId : p.ledger.sequenceId = d.sequenceId
  currentHash : p.ledger.currentHash.text = sha256Hex (dumps d.payload)
  publicKey : p.signature.publicKey.text = toHex signer.publicKey
  value : p.signature.value.text = toHex (signer.sign (sha256 (utf8 (dumps d.payload))))

theorem Draft.Signed.payload {d : Draft} {signer : Signer} {p : ProofV1} (h : d.Signed signer p) :
    p.payload = d.payload := by
  rw [ProofV1.payload, Draft.payload, h.decision, h.decisionContext, h.governance, h.determinism,
    h.previousHash, h.sequenceId]

section

variable {d : Draft} {signer : Signer} {env : CallEnv} {i : String}

/-- Signing as one statement: the hash, the signature and the models. -/
theorem Draft.sign_eq_ok {p : ProofV1} :
    d.sign signer env i = .ok p ↔ d.payload.floatFree = true ∧ env.signFault = none ∧
      ∃ l s, Ledger.make d.sequenceId d.previousHash (sha256Hex (dumps d.payload)) env.now.text = some l ∧
        Signature.make .ed25519 signer.keyId (toHex signer.publicKey)
          (toHex (signer.sign (sha256 (utf8 (dumps d.payload))))) = some s ∧
        ProofV1.make i d.decision d.decisionContext d.governance d.determinism l s = some p := by
  simp only [Draft.sign, bind_eq_ok_iff, validated_eq_ok, signHash_eq_ok]
  constructor
  · rintro ⟨x, hx, _, ⟨hfault, rfl⟩, l, hl, s, hs, hp⟩
    obtain ⟨hff, rfl⟩ := Draft.hash_eq_ok.1 hx
    rw [fromHex_sha256Hex, Option.getD_some] at hs
    exact ⟨hff, hfault, l, s, hl, hs, hp⟩
  · rintro ⟨hff, hfault, l, s, hl, hs, hp⟩
    refine ⟨_, Draft.hash_eq_ok.2 ⟨hff, rfl⟩, _, ⟨hfault, rfl⟩, l, hl, s, ?_, hp⟩
    rw [fromHex_sha256Hex, Option.getD_some]
    exact hs

/-- Signing returns if the payload can be hashed, the signer does not raise, and
the proof passes its own checks. -/
theorem Draft.sign_returns {prev : HexText 64} (hprev : d.previousHash = prev.text) (hseq : 1 ≤ d.sequenceId)
    (hff : d.payload.floatFree = true) (hfault : env.signFault = none) (hi : i ≠ "")
    (hm : d.decisionContext.modelVersion = d.governance.modelVersion) :
    ∃ p, d.sign signer env i = .ok p := by
  obtain ⟨pub, hpub, -⟩ := signer.publicKey_make
  obtain ⟨sig, hsig, -⟩ := signer.sign_make (sha256 (utf8 (dumps d.payload)))
  have hhash := HexText.make_text (.sha256 (dumps d.payload))
  have hl : Ledger.make d.sequenceId d.previousHash (sha256Hex (dumps d.payload)) env.now.text = some
      ⟨d.sequenceId, prev, .sha256 (dumps d.payload), env.now.text, hseq, env.now.length, env.now.utc⟩ :=
    Ledger.make_eq_some.2 ⟨rfl, hprev ▸ prev.make_text, hhash, rfl⟩
  have hs : Signature.make .ed25519 signer.keyId (toHex signer.publicKey)
      (toHex (signer.sign (sha256 (utf8 (dumps d.payload))))) =
        some ⟨.ed25519, signer.keyId, pub, sig, signer.keyId_ne⟩ :=
    Signature.make_eq_some.2 ⟨rfl, hpub, hsig⟩
  exact ⟨_, Draft.sign_eq_ok.2 ⟨hff, hfault, _, _, hl, hs, dif_pos ⟨hi, hm⟩⟩⟩

/-- What is signed is the draft. -/
theorem Draft.sign_signed {p : ProofV1} (hprev : ∃ t : HexText 64, d.previousHash = t.text)
    (h : d.sign signer env i = .ok p) : p.instanceId = i ∧ d.Signed signer p := by
  obtain ⟨prev, hprev⟩ := hprev
  obtain ⟨pub, hpub, hpubt⟩ := signer.publicKey_make
  obtain ⟨sig, hsig, hsigt⟩ := signer.sign_make (sha256 (utf8 (dumps d.payload)))
  obtain ⟨-, -, l, s, hl, hs, hp⟩ := Draft.sign_eq_ok.1 h
  obtain ⟨hi, hd, hc, hg, ht, rfl, rfl⟩ := ProofV1.make_eq_some.1 hp
  obtain ⟨hseq, hprevious, hcurrent, -⟩ := Ledger.make_eq_some.1 hl
  obtain ⟨-, hpublic, hvalue⟩ := Signature.make_eq_some.1 hs
  have hhash : HexText.make 64 (sha256Hex (dumps d.payload)) = some (.sha256 (dumps d.payload)) :=
    HexText.make_text (.sha256 (dumps d.payload))
  rw [hprev, prev.make_text] at hprevious
  rw [hhash] at hcurrent
  rw [hpub] at hpublic
  rw [hsig] at hvalue
  refine ⟨hi, hd, hc, hg, ht, ?_, hseq, ?_, ?_, ?_⟩
  · rw [hprev, Option.some.inj hprevious]
  · rw [← Option.some.inj hcurrent]; rfl
  · rw [← hpubt, Option.some.inj hpublic]
  · rw [← hsigt, Option.some.inj hvalue]

end

/-- **The proof that is built**: well formed, hashed, signed, and at the end of
the chain. -/
theorem buildProof_ok {db : Db} (hch : Chained db.ledger) (hx : HexRows db.ledger) {signer : Signer}
    {env : CallEnv} {a : DecisionArgs} {p : ProofV1} (h : buildProof db signer env a = .ok p) :
    Built signer a p ∧ p.ledger.previousHash.text = tipOf db a.instanceId ∧
      p.ledger.sequenceId = (rowsOf db.ledger defaultTenant a.instanceId).length + 1 := by
  obtain ⟨d, hd, hs⟩ := bind_eq_ok_iff.1 h
  have hdraft := draft_ok hch hx hd
  obtain ⟨hi, hsigned⟩ := Draft.sign_signed (hdraft.previousHash ▸ tipOf_hex hx a.instanceId) hs
  have hff := (Draft.sign_eq_ok.1 hs).1
  have hpay := hsigned.payload
  refine ⟨?_, hsigned.previousHash.trans hdraft.previousHash, hsigned.sequenceId.trans hdraft.sequenceId⟩
  exact {
    instanceId := hi
    carries := hsigned.decision ▸ hsigned.decisionContext ▸ hsigned.governance ▸ hdraft.carries
    floatFree := hpay ▸ hff
    wf := ProofV1.dump_wf.2 (hsigned.decisionContext ▸ hdraft.wf)
    hash_eq := hpay ▸ hsigned.currentHash
    publicKey := hsigned.publicKey
    value := hpay ▸ hsigned.value
    mode := hsigned.determinism ▸ hdraft.mode
    seed := hsigned.determinism ▸ hdraft.seed
    calls := hsigned.determinism ▸ hdraft.calls }

/-! ### When a proof is built -/

/-- What `record_decision` asks of its arguments: approved versions, a
JSON-encodable metadata and input, the fields the determinism mode needs, and no
empty text. -/
structure Recordable (db : Db) (a : DecisionArgs) : Prop where
  modelVersion : a.modelVersion ∈ db.modelVersions
  agentVersion : a.agentVersion ∈ db.agentVersions
  policyVersion : a.policyVersion ∈ db.policyVersions
  metadata : (PyVal.dict (a.metadata.getD [])).toJson?.isSome = true
  rawInputs : a.rawInputs.isSome = true
  seed : a.determinismMode = .replayWithSeed → seedMissing a.randomSeed = false
  calls : a.determinismMode = .replayWithRecordedIo →
    callsMissing a.externalCalls = false ∧ ((a.externalCalls.getD []).mapM id).isSome = true
  instanceId_ne : a.instanceId ≠ ""
  fromState_ne : a.fromState ≠ ""
  toState_ne : a.toState ≠ ""
  reasonCode_ne : a.reasonCode ≠ ""
  policyRule_ne : a.policyRule ≠ ""
  modelVersion_ne : a.modelVersion ≠ ""
  agentVersion_ne : a.agentVersion ≠ ""
  policyVersion_ne : a.policyVersion ≠ ""

theorem extCallsHash_returns {m : DeterminismMode} {c : Option (List (Option Json))}
    (h : m = .replayWithRecordedIo → callsMissing c = false ∧ ((c.getD []).mapM id).isSome = true) :
    ∃ e, extCallsHash m c = .ok e := by
  rw [extCallsHash]
  split_ifs with hm
  · obtain ⟨js, hjs⟩ := Option.isSome_iff_exists.1 (h hm.1).2
    exact ⟨_, by rw [hjs]; rfl⟩
  · exact ⟨none, rfl⟩

theorem draft_returns {db : Db} (hch : Chained db.ledger) (hx : HexRows db.ledger) {a : DecisionArgs}
    (h : Recordable db a) : ∃ d, draft db a = .ok d := by
  obtain ⟨j, hj⟩ := Option.isSome_iff_exists.1 h.metadata
  obtain ⟨md, -, hmd⟩ := Option.map_eq_some_iff.1 hj
  obtain ⟨raw, hraw⟩ := Option.isSome_iff_exists.1 h.rawInputs
  obtain ⟨ext, hext⟩ := extCallsHash_returns h.calls
  have hcalls := extCallsHash_eq_ok (fun hm => (h.calls hm).1) hext
  have hfields : modeFields a.determinismMode a.randomSeed ext = true := by
    cases hm : a.determinismMode with
    | strictDeterministic => rfl
    | replayWithSeed =>
      have hs := h.seed hm
      rw [modeFields]
      cases hr : a.randomSeed with
      | none => rw [hr] at hs; cases hs
      | some s => rfl
    | replayWithRecordedIo =>
      rw [if_pos hm] at hcalls
      obtain ⟨t, rfl⟩ := hcalls
      simp [modeFields, sha256Hex_length]
  have hhash : HexText.make 64 (sha256Hex (dumps raw)) = some (.sha256 (dumps raw)) :=
    HexText.make_text (.sha256 (dumps raw))
  simp only [draft, bind_eq_ok_iff, validated_eq_ok, hashRaw_eq_ok]
  exact ⟨_, (), validateGovernance_eq_ok.2 ⟨h.modelVersion, h.agentVersion, h.policyVersion⟩,
    md, validateMetadata_eq_ok.2 (hmd ▸ hj),
    (), validateDeterminism_eq_ok.2 ⟨h.seed, fun hm => (h.calls hm).1⟩,
    _, getPreviousHashAndSequence_eq hch hx _,
    ⟨_, _, h.fromState_ne, h.toState_ne⟩, Decision.make_eq_some.2 ⟨rfl, rfl⟩,
    _, ⟨raw, hraw, rfl⟩,
    ⟨_, _, _, .sha256 (dumps raw), _, _, _, h.reasonCode_ne, h.policyRule_ne, h.modelVersion_ne⟩,
    DecisionContext.make_eq_some.2 ⟨rfl, rfl, rfl, hhash, rfl, rfl, rfl⟩,
    ⟨_, _, _, h.modelVersion_ne, h.agentVersion_ne, h.policyVersion_ne⟩,
    Governance.make_eq_some.2 ⟨rfl, rfl, rfl⟩,
    ext, hext, ⟨_, _, _, hfields⟩, Determinism.make_eq_some.2 ⟨rfl, rfl, rfl⟩, rfl⟩

theorem draft_recordable {db : Db} {a : DecisionArgs} {d : Draft} (hi : a.instanceId ≠ "")
    (h : draft db a = .ok d) : Recordable db a := by
  simp only [draft, bind_eq_ok_iff, validated_eq_ok, hashRaw_eq_ok] at h
  obtain ⟨⟨⟩, hgov, md, hmd, ⟨⟩, hdet, link, -, dec, hdec, _, ⟨raw, hraw, rfl⟩, ctx, hctx, gov, hg, ext, hext,
    det, hdetm, -⟩ := h
  obtain ⟨hm, ha, hp⟩ := validateGovernance_eq_ok.1 hgov
  obtain ⟨hseed, hcalls⟩ := validateDeterminism_eq_ok.1 hdet
  obtain ⟨hf, ht⟩ := Decision.make_eq_some.1 hdec
  obtain ⟨hr, hpr, -⟩ := DecisionContext.make_eq_some.1 hctx
  obtain ⟨hgm, hga, hgp⟩ := Governance.make_eq_some.1 hg
  have hserial : a.determinismMode = .replayWithRecordedIo →
      ((a.externalCalls.getD []).mapM id).isSome = true := by
    intro hmode
    rw [extCallsHash, if_pos ⟨hmode, by rw [hcalls hmode]; rfl⟩] at hext
    cases hs : (a.externalCalls.getD []).mapM id with
    | none => rw [hs] at hext; cases hext
    | some js => rfl
  exact {
    modelVersion := hm
    agentVersion := ha
    policyVersion := hp
    metadata := by rw [validateMetadata_eq_ok.1 hmd]; rfl
    rawInputs := by rw [hraw]; rfl
    seed := hseed
    calls := fun hmode => ⟨hcalls hmode, hserial hmode⟩
    instanceId_ne := hi
    fromState_ne := hf ▸ dec.fromState_ne
    toState_ne := ht ▸ dec.toState_ne
    reasonCode_ne := hr ▸ ctx.reasonCode_ne
    policyRule_ne := hpr ▸ ctx.policyRule_ne
    modelVersion_ne := hgm ▸ gov.modelVersion_ne
    agentVersion_ne := hga ▸ gov.agentVersion_ne
    policyVersion_ne := hgp ▸ gov.policyVersion_ne }

/-- **When a proof is built**: exactly if the arguments are recordable and the
signer does not raise. -/
theorem buildProof_isOk_iff {db : Db} (hch : Chained db.ledger) (hx : HexRows db.ledger) {signer : Signer}
    {env : CallEnv} {a : DecisionArgs} :
    (∃ p, buildProof db signer env a = .ok p) ↔ Recordable db a ∧ env.signFault = none := by
  constructor
  · rintro ⟨p, h⟩
    obtain ⟨d, hd, hs⟩ := bind_eq_ok_iff.1 h
    obtain ⟨-, hfault, l, s, -, -, hp⟩ := Draft.sign_eq_ok.1 hs
    have hi : p.instanceId = a.instanceId := (ProofV1.make_eq_some.1 hp).1
    exact ⟨draft_recordable (hi ▸ p.instanceId_ne) hd, hfault⟩
  · rintro ⟨hr, hfault⟩
    obtain ⟨d, hd⟩ := draft_returns hch hx hr
    have hdraft := draft_ok hch hx hd
    obtain ⟨prev, hprev⟩ := tipOf_hex hx a.instanceId
    have hff : d.payload.floatFree = true := by
      rw [Draft.payload, hashPayload_floatFree]
      simp [Decision.dump_floatFree, Governance.dump_floatFree, Determinism.dump_floatFree, hdraft.floatFree]
    have hseq : 1 ≤ d.sequenceId := by rw [hdraft.sequenceId]; omega
    obtain ⟨p, hp⟩ := Draft.sign_returns (hdraft.previousHash.trans hprev) hseq hff hfault
      hr.instanceId_ne hdraft.modelVersion
    exact ⟨p, bind_eq_ok_iff.2 ⟨d, hd, hp⟩⟩

/-! ### The append -/

theorem sqlLength_toHex (bs : Bytes) : sqlLength (toHex bs) = 2 * bs.length := by
  have hne : ∀ c ∈ (toHex bs).toList, decide (c ≠ Char.ofNat 0) = true := fun c hc =>
    decide_eq_true (lowerHex_ne (List.all_eq_true.1 (toHex_lower bs) c hc) (by decide))
  rw [sqlLength, List.takeWhile_eq_self_iff.2 hne, String.length_toList, toHex_length]

/-- Every row is of the default tenant: `record_decision` names no other. -/
def OneTenant (ledger : List LedgerRow) : Prop := ∀ r ∈ ledger, r.tenantId = defaultTenant

theorem checkConflict_ok {l : List LedgerRow} (h : OneTenant l) (i : String) :
    checkConflict l i defaultTenant = .ok () := by
  have hnone : l.find? (fun r => r.instanceId = i ∧ r.tenantId ≠ defaultTenant) = none := by
    rw [List.find?_eq_none]
    intro r hr
    simp [h r hr]
  rw [checkConflict, hnone]

/-- A proof at the end of the chain can be appended exactly if its hash is new to
the instance. -/
theorem Built.appendable_iff {db : Db} {signer : Signer} {a : DecisionArgs} {p : ProofV1}
    (hb : Built signer a p) (hch : Chained db.ledger) (hone : OneTenant db.ledger)
    (hprev : p.ledger.previousHash.text = tipOf db a.instanceId)
    (hseq : p.ledger.sequenceId = (rowsOf db.ledger defaultTenant a.instanceId).length + 1) :
    db.Appendable p.toDict ↔
      ∀ r ∈ rowsOf db.ledger defaultTenant a.instanceId, r.currentHash ≠ p.ledger.currentHash.text := by
  rw [← hb.instanceId] at hprev hseq ⊢
  have hvalid : validateChainIntegrity db.ledger p.instanceId p.ledger.sequenceId
      p.ledger.previousHash.text defaultTenant = .ok () := by
    rw [validateChainIntegrity, checkConflict_ok hone]
    exact (checkLink_ok_iff hch).2 ⟨hseq, hprev⟩
  have hcur : sqlLength p.ledger.currentHash.text = 64 := by
    rw [hb.hash_eq, sha256Hex, sqlLength_toHex, sha256_length]
  have hsig : sqlLength p.signature.value.text = 128 := by
    rw [hb.value, sqlLength_toHex, signer.sign_length]
  have hfresh : ∀ r ∈ rowsOf db.ledger defaultTenant p.instanceId, r.sequenceId ≠ p.ledger.sequenceId := by
    intro r hr
    obtain ⟨k, hk, hrk⟩ := List.getElem_of_mem hr
    have hn : r.sequenceId = 1 + k := (hch _ _).seq_get (List.getElem?_eq_some_iff.2 ⟨hk, hrk⟩)
    omega
  have hpos : p.ledger.sequenceId ≥ 1 ∨ p.ledger.sequenceId = 0 := .inl p.ledger.sequenceId_pos
  constructor
  · rintro ⟨-, -, -, -, -, -, hu⟩
    exact hu
  · intro hu
    exact ⟨p.signature.value.text_length, hvalid, hcur, hsig, hpos, hfresh, hu⟩

/-- **What `record_decision` does**: it raises and changes nothing, or returns the
proof it built and appends its row. -/
theorem recordDecision_cases (db : Db) (signer : Signer) (env : CallEnv) (a : DecisionArgs) :
    (∃ e, recordDecision db signer env a = (.error e, db)) ∨
      ∃ p, buildProof db signer env a = .ok p ∧ db.Appendable p.toDict ∧
        recordDecision db signer env a = (.ok p, db.appended env.now.text p.toDict) := by
  rw [recordDecision]
  cases hb : buildProof db signer env a with
  | error e => exact .inl ⟨e, rfl⟩
  | ok p =>
    by_cases happ : db.Appendable p.toDict
    · refine .inr ⟨p, rfl, happ, ?_⟩
      simp only [Db.appendLedgerEntry_of_appendable env.now.text happ]
    · obtain ⟨e, he⟩ := Db.appendLedgerEntry_of_not env.now.text happ
      exact .inl ⟨e, by simp only [he]⟩

/-! ### The proof under the verifier -/

/-- A strict decision with a seed: the recorder takes the seed in every mode, the
verifier refuses it in this one. -/
def SeededStrict (a : DecisionArgs) : Prop :=
  a.determinismMode = .strictDeterministic ∧ a.randomSeed.isSome = true

theorem Built.determinism_iff {signer : Signer} {a : DecisionArgs} {p : ProofV1} (hb : Built signer a p) :
    validateDeterminismConsistency p.determinism = none ↔ ¬ SeededStrict a := by
  have hfields := p.determinism.fields
  have hc := hb.calls
  rw [validateDeterminismConsistency, SeededStrict]
  rw [hb.mode, hb.seed] at hfields ⊢
  cases hm : a.determinismMode with
  | strictDeterministic =>
    rw [if_neg (by rw [hm]; decide)] at hc
    rw [hc]
    cases a.randomSeed <;> simp
  | replayWithSeed =>
    rw [hm, modeFields] at hfields
    cases hs : a.randomSeed with
    | none => rw [hs] at hfields; cases hfields
    | some s => simp
  | replayWithRecordedIo =>
    rw [if_pos hm] at hc
    obtain ⟨t, ht⟩ := hc
    rw [ht]
    simp [isValidHash]

/-- **Recorder and verifier on one proof**: a proof that was built is good by
itself exactly if it is no strict decision with a seed. -/
theorem Built.genuine_iff {ed : Ed25519} {signer : Signer} (hs : signer.Honest ed) {a : DecisionArgs}
    {p : ProofV1} (hb : Built signer a p) : Genuine ed p ↔ ¬ SeededStrict a := by
  refine ⟨fun h => hb.determinism_iff.1 h.determinism, fun h => ⟨hb.floatFree, hb.hash_eq, ?_, hb.determinism_iff.2 h⟩⟩
  rw [hb.publicKey, hb.value, verifyEd25519_toHex]
  exact hs _

theorem Genuine.canon_iff {ed : Ed25519} {p : ProofV1} : Genuine ed p.canon ↔ Genuine ed p := by
  have hff : p.canon.payload.floatFree = true ↔ p.payload.floatFree = true := by
    have hmeta : Json.obj p.canon.decisionContext.metadata = (Json.obj p.decisionContext.metadata).canon :=
      (Json.canon_obj _).symm
    rw [ProofV1.payload_floatFree, ProofV1.payload_floatFree, hmeta, Json.floatFree_canon]
  have hpay := p.dumps_payload_canon
  constructor
  · rintro ⟨hf, hh, hs, hd⟩
    rw [hpay] at hh hs
    exact ⟨hff.1 hf, hh, hs, hd⟩
  · rintro ⟨hf, hh, hs, hd⟩
    rw [← hpay] at hh hs
    exact ⟨hff.2 hf, hh, hs, hd⟩

end ProvableAi
