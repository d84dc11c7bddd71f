/-
# `POST /verify`

The endpoint verifies the body it is sent and hands body and verdict to
`VerificationAuditLog.record`, whose comment reads "ALWAYS record failures —
incomplete audit trail fails compliance".  What `record` raises is logged and
the response is sent all the same.

`verify_proof_full` is modelled on every body that is a `Json` value.  What
pydantic makes of the others (a lone surrogate, `NaN`, `Infinity`) is the
parameter `irregular`; the results hold for whatever it answers.

The request leaves exactly one row with the verdict of the response if and only
if the body is `Auditable` (`postVerify_recorded_iff`): `instance_id` and
`proof_id` hold no lone surrogate, and `ledger.sequence_id` is no infinity and,
read as an integer, fits 64 bits.  Other bodies are verified and not recorded.
-/

import ProvableAi.Audit.Log
import ProvableAi.Audit.Body
import ProvableAi.Verifier

namespace ProvableAi

/-! ### `verify_proof_full` -/

/-- The failure reason of a result, where there is one, names its type and its
message. -/
def VerificationResult.Stated (r : VerificationResult) : Prop :=
  ∀ reason ∈ r.failureReason, ∃ type message rest,
    reason = .obj (("type", .str type) :: ("message", .str message) :: rest)

theorem ProofV1.failure_stated (p : ProofV1) (now : String) (c g : Bool) (type message : String)
    (more : List (String × Json)) : (p.failure now c g type message more).Stated := by
  rintro _ ⟨⟩
  exact ⟨type, message, _, rfl⟩

theorem verifyPosition_stated (now : String) (p : ProofV1) (prev : Option String) (seq : Option ℤ) :
    (verifyPosition now p prev seq).Stated := by
  unfold verifyPosition
  dsimp only
  split_ifs
  · apply p.failure_stated
  · apply p.failure_stated
  · apply p.failure_stated
  · split
    · apply p.failure_stated
    · exact nofun

/-- **Every failure that `verify_proof` reports** names its type and message. -/
theorem verifyProof_stated (py : Pydantic) (ed : Ed25519) (now : String) (j : Json) (prev : Option String)
    (seq : Option ℤ) : (verifyProof py ed now j prev seq).Stated := by
  unfold verifyProof
  split
  · rintro _ ⟨⟩
    exact ⟨_, _, _, rfl⟩
  · rename_i p _
    split
    · apply p.failure_stated
    · split_ifs
      · apply p.failure_stated
      · split
        · apply p.failure_stated
        · split_ifs
          · apply verifyPosition_stated
          · apply p.failure_stated

/-- What `verify_proof` and `ProofV1.model_validate` return for one body. -/
structure Verdict where
  result : VerificationResult
  proof : Option ProofV1
  stated : result.Stated

/-- The verdict on a JSON value. -/
def Verdict.ofJson (py : Pydantic) (ed : Ed25519) (now : String) (j : Json) : Verdict where
  result := verifyProof py ed now j none none
  proof := ProofV1.parse py j
  stated := verifyProof_stated py ed now j none none

/-- The dict that `verify_proof_full` returns. -/
structure VerifyOutput where
  valid : Bool
  chainIntact : Bool
  sequenceVerified : ℤ
  finalState : Option String
  keyId : String
  verifiedAt : String
  governanceRecorded : Option Json
  governanceVerified : Bool
  replayResult : Option Json
  failureReason : Option Json

/-- `governance_recorded`. -/
def ProofV1.governanceRecorded (p : ProofV1) : Json :=
  .obj [("model_version", .str p.governance.modelVersion), ("agent_version", .str p.governance.agentVersion),
    ("policy_version", .str p.governance.policyVersion),
    ("determinism_mode", .str p.determinism.mode.value)]

/-- `_build_replay_info`. -/
def ProofV1.buildReplayInfo (p : ProofV1) : Json :=
  .obj [("mode_valid", .bool true), ("seed_captured", .bool p.determinism.seed.isSome),
    ("external_calls_recorded", .int (if p.determinism.externalCallsHash.isSome then 1 else 0)),
    ("full_replay_executed", .bool false), ("determinism_mode", .str p.determinism.mode.value)]

/-- `verify_proof_full`. -/
def verifyProofFull (v : Verdict) : VerifyOutput :=
  -- read back only from a proof that is valid
  let proof := if v.result.valid then v.proof else none
  { valid := v.result.valid, chainIntact := v.result.chainIntact
    sequenceVerified := v.result.sequenceVerified, finalState := v.result.finalState
    keyId := v.result.keyId, verifiedAt := v.result.verifiedAt
    governanceRecorded := proof.map ProofV1.governanceRecorded, governanceVerified := false
    replayResult := proof.map ProofV1.buildReplayInfo, failureReason := v.result.failureReason }

namespace Audit

/-! ### `record` and the endpoint -/

/-- `failure.get(key) if failure else None`; what `verify_proof` puts there is
text (`verifyProof_stated`). -/
def failureText (failureReason : Option Json) (key : String) : Option String :=
  failureReason.bind fun failure => if failure.truthy then failure.strField key else none

/-- `verify_result.get("verified_at") or now`. -/
def orNow (verifiedAt now : String) : String := if verifiedAt = "" then now else verifiedAt

/-- `json.dumps(gov) if gov else None`. -/
def governanceText (governanceRecorded : Option Json) : Option String :=
  governanceRecorded.bind fun gov => if gov.truthy then some (dumps gov) else none

/-- What `record` extracts before it reads the log. -/
def extract (tenantId traceId : String) (proofDict : Body) (verifyResult : VerifyOutput) (now : String) :
    Except PyErr Event := do
  let instanceId ← proofDict.safeGet ["instance_id"]
  let sequenceId ← proofDict.safeGetInt ["ledger", "sequence_id"]
  let proofId ← proofDict.safeGet ["proof_id"]
  .ok
    { tenantId := tenantId, traceId := traceId, instanceId := instanceId, sequenceId := sequenceId
      proofId := proofId, verifiedAt := orNow verifyResult.verifiedAt now, valid := verifyResult.valid
      failureCode := failureText verifyResult.failureReason "type"
      failureMsg := failureText verifyResult.failureReason "message", keyId := some verifyResult.keyId
      governanceJson := governanceText verifyResult.governanceRecorded, recordedAt := now }

/-- `VerificationAuditLog.record`. -/
def record (table : List AuditRow) (tenantId traceId : String) (proofDict : Body)
    (verifyResult : VerifyOutput) (now : String) : Except PyErr (VerificationAuditEntry × List AuditRow) := do
  let event ← extract tenantId traceId proofDict verifyResult now
  recordEvent table event

/-- A `POST /verify` whose body `request.json()` reads, with the two readings of
the clock it leads to. -/
structure Request where
  tenantId : String
  traceId : String
  body : Body
  verifiedAt : String
  recordedAt : String

section Endpoint

variable (py : Pydantic) (ed : Ed25519) (irregular : String → Body → Verdict)

/-- `verify_proof_full(body)`. -/
def Request.verify (r : Request) : VerifyOutput :=
  verifyProofFull (match r.body.toJson? with
    | some j => .ofJson py ed r.verifiedAt j
    | none => irregular r.verifiedAt r.body)

/-- `verify_proof_endpoint`: the response and the log after it.  What `record`
raises is swallowed. -/
def postVerify (table : List AuditRow) (r : Request) : VerifyOutput × List AuditRow :=
  let result := r.verify py ed irregular
  match record table r.tenantId r.traceId r.body result r.recordedAt with
  | .ok (_, table') => (result, table')
  | .error _ => (result, table)

/-- The log after a history of requests. -/
def serve (table : List AuditRow) (history : List Request) : List AuditRow :=
  history.foldl (fun table r => (postVerify py ed irregular table r).2) table

/-- The request adds exactly one row, for its tenant, and the row's result is the
one of the response. -/
def Recorded (table : List AuditRow) (r : Request) : Prop :=
  ∃ row, (postVerify py ed irregular table r).2 = table ++ [row] ∧ row.tenantId = r.tenantId ∧
    row.result = if (postVerify py ed irregular table r).1.valid then "valid" else "invalid"

end Endpoint

end Audit

/-! ### The bodies that are recorded -/

/-- The proof identity of the body can be written: the texts hold no lone
surrogate, the number is an integer of 64 bits or none at all. -/
structure Body.Auditable (b : Body) : Prop where
  instanceId : ∀ s, b.path ["instance_id"] = .ok (.str s) → s.toString?.isSome = true
  proofId : ∀ s, b.path ["proof_id"] = .ok (.str s) → s.toString?.isSome = true
  finite : ∀ v, b.path ["ledger", "sequence_id"] = .ok v → v.infinite = false
  sequenceId : ∀ v n, b.path ["ledger", "sequence_id"] = .ok v → v.pyInt = .ok n → Audit.fitsInteger n = true

namespace Body

/-- `str(v)` of a value that is no text holds no surrogate. -/
theorem pyStr_scalar {v : Body} (h : ∀ s, v ≠ .str s) : v.pyStr.toString?.isSome = true := by
  have hv : v.pyStr = .ofString v.repr := by
    cases v with
    | str s => exact absurd rfl (h s)
    | _ => rfl
  rw [hv, PyStr.toString?_ofString]
  rfl

/-- `_safe_get` finds a text that cannot be encoded exactly where the path leads
to one. -/
theorem safeGet_encodable_iff {d : Body} {keys : List String} {o : Option PyStr} (h : safeGet d keys = .ok o) :
    (∀ s ∈ o, s.toString?.isSome = true) ↔
      ∀ s, d.path keys = .ok (.str s) → s.toString?.isSome = true := by
  unfold safeGet at h
  cases hp : path d keys with
  | error e =>
    have ho : o = none := by
      rw [hp] at h
      rcases path_error hp with ⟨k, rfl⟩ | rfl
      · exact (Except.ok.inj h).symm
      · exact (Except.ok.inj h).symm
    simp [ho]
  | ok v =>
    rw [hp] at h
    simp only [Except.ok.injEq]
    cases v with
    | null =>
      obtain rfl := Except.ok.inj h
      simp
    | str t =>
      obtain rfl := Except.ok.inj h
      simp [pyStr]
    | _ =>
      obtain rfl := Except.ok.inj h
      simpa using pyStr_scalar (by simp)

/-- What `_safe_get_int` returns, where it returns. -/
theorem safeGetInt_eq_some_iff {d : Body} {keys : List String} {o : Option ℤ} (h : safeGetInt d keys = .ok o)
    (n : ℤ) : n ∈ o ↔ ∃ v, d.path keys = .ok v ∧ v.pyInt = .ok n := by
  unfold safeGetInt at h
  cases hp : path d keys with
  | error e =>
    have ho : o = none := by
      rw [hp] at h
      rcases path_error hp with ⟨k, rfl⟩ | rfl
      · exact (Except.ok.inj h).symm
      · exact (Except.ok.inj h).symm
    simp [ho]
  | ok v =>
    rw [hp] at h
    simp only [Except.bind, Except.ok.injEq, exists_eq_left'] at h ⊢
    have hnone : v = .null ∨ v.intOrNone = v.pyInt.map some := by
      cases v with
      | null => exact .inl rfl
      | _ => exact .inr rfl
    rcases hnone with rfl | hv
    · obtain rfl := Except.ok.inj h
      simp [pyInt]
    · rw [hv] at h
      cases hi : v.pyInt with
      | ok m =>
        rw [hi] at h
        obtain rfl := Except.ok.inj h
        simp [eq_comm]
      | error e =>
        have ho : o = none := by
          rw [hi] at h
          rcases pyInt_error hi with rfl | ⟨m, rfl⟩ | ⟨rfl, -⟩
          · exact (Except.ok.inj h).symm
          · exact (Except.ok.inj h).symm
          · cases h
        simp [ho]

end Body

namespace Audit

section Recording

variable {tenantId traceId now : String} {body : Body} {out : VerifyOutput}

/-- What an event takes from the body and from the verdict. -/
theorem extract_ok_iff {e : Event} (h : extract tenantId traceId body out now = .ok e) :
    (e.Recordable ↔ body.Auditable) ∧ e.tenantId = tenantId ∧ e.valid = out.valid := by
  simp only [extract, bind_eq_ok_iff] at h
  obtain ⟨i, hi, s, hs, p, hp, h⟩ := h
  obtain rfl := Except.ok.inj h
  have hfinite : ∀ v, body.path ["ledger", "sequence_id"] = .ok v → v.infinite = false := by
    intro v hv
    by_contra hinf
    obtain ⟨err, herr⟩ := Body.safeGetInt_raises_iff.2 ⟨v, hv, Bool.eq_true_of_not_eq_false hinf⟩
    rw [hs] at herr
    cases herr
  refine ⟨⟨fun he => ⟨?_, ?_, hfinite, ?_⟩, fun hb => ⟨?_, ?_, ?_⟩⟩, rfl, rfl⟩
  · exact (Body.safeGet_encodable_iff hi).1 he.instanceId
  · exact (Body.safeGet_encodable_iff hp).1 he.proofId
  · intro v n hv hn
    exact he.sequenceId n ((Body.safeGetInt_eq_some_iff hs n).2 ⟨v, hv, hn⟩)
  · exact (Body.safeGet_encodable_iff hi).2 hb.instanceId
  · exact (Body.safeGet_encodable_iff hp).2 hb.proofId
  · intro n hn
    obtain ⟨v, hv, hvn⟩ := (Body.safeGetInt_eq_some_iff hs n).1 hn
    exact hb.sequenceId v n hv hvn

/-- The extraction returns for an auditable body. -/
theorem extract_returns (h : body.Auditable) : ∃ e, extract tenantId traceId body out now = .ok e := by
  obtain ⟨i, hi⟩ := body.safeGet_returns ["instance_id"]
  obtain ⟨p, hp⟩ := body.safeGet_returns ["proof_id"]
  cases hs : body.safeGetInt ["ledger", "sequence_id"] with
  | error e =>
    obtain ⟨v, hv, hinf⟩ := Body.safeGetInt_raises_iff.1 ⟨e, hs⟩
    rw [h.finite v hv] at hinf
    cases hinf
  | ok s => exact ⟨_, by rw [extract, hi, ok_bind, hs, ok_bind, hp, ok_bind]⟩

/-- **`record` returns exactly for the auditable bodies**, whatever the verdict. -/
theorem record_returns_iff {table : List AuditRow} (h : LogInv table) :
    (∃ r, record table tenantId traceId body out now = .ok r) ↔ body.Auditable := by
  constructor
  · rintro ⟨r, hr⟩
    simp only [record, bind_eq_ok_iff] at hr
    obtain ⟨e, he, hr⟩ := hr
    exact (extract_ok_iff he).1.1 ((recordEvent_ok_iff h).1 ⟨r, hr⟩)
  · intro hb
    obtain ⟨e, he⟩ : ∃ e, extract tenantId traceId body out now = .ok e := extract_returns hb
    obtain ⟨r, hr⟩ := (recordEvent_ok_iff h).2 ((extract_ok_iff he).1.2 hb)
    exact ⟨r, by rw [record, he, ok_bind, hr]⟩

/-- What `record` adds where it returns. -/
theorem record_ok {table table' : List AuditRow} (h : LogInv table) {entry : VerificationAuditEntry}
    (hr : record table tenantId traceId body out now = .ok (entry, table')) :
    LogInv table' ∧ ∃ row : AuditRow, table' = table ++ [row] ∧ row.tenantId = tenantId ∧
      row.result = if out.valid then "valid" else "invalid" := by
  simp only [record, bind_eq_ok_iff] at hr
  obtain ⟨e, he, hr⟩ := hr
  obtain ⟨-, ht, hv⟩ := extract_ok_iff he
  obtain ⟨hinv, row, htab, -, hrow, hres⟩ := recordEvent_ok h hr
  exact ⟨hinv, row, htab, hrow.trans ht, hv ▸ hres⟩

end Recording

section Requests

variable (py : Pydantic) (ed : Ed25519) (irregular : String → Body → Verdict)

/-- The response does not depend on the log. -/
theorem postVerify_fst (table : List AuditRow) (r : Request) :
    (postVerify py ed irregular table r).1 = r.verify py ed irregular := by
  rw [postVerify]
  split <;> rfl

/-- **One request**: the log stays one that `record` has written, and the request
is recorded exactly if its body is auditable. -/
theorem postVerify_step {table : List AuditRow} (h : LogInv table) (r : Request) :
    LogInv (postVerify py ed irregular table r).2 ∧ (Recorded py ed irregular table r ↔ r.body.Auditable) := by
  have hiff : (∃ res, record table r.tenantId r.traceId r.body (r.verify py ed irregular) r.recordedAt = .ok res) ↔
      r.body.Auditable := record_returns_iff h
  rw [Recorded, postVerify]
  cases hr : record table r.tenantId r.traceId r.body (r.verify py ed irregular) r.recordedAt with
  | ok res =>
    obtain ⟨hinv, row, htab, ht, hres⟩ := record_ok h hr
    exact ⟨hinv, fun _ => hiff.1 ⟨res, hr⟩, fun _ => ⟨row, htab, ht, hres⟩⟩
  | error e =>
    refine ⟨h, fun ⟨row, htab, _⟩ => ?_, fun hb => ?_⟩
    · -- nothing was added
      simp at htab
    · obtain ⟨res, hok⟩ := hiff.2 hb
      rw [hr] at hok
      cases hok

theorem LogInv.serve {history : List Request} : ∀ {table : List AuditRow}, LogInv table →
    LogInv (serve py ed irregular table history) := by
  induction history with
  | nil => exact id
  | cons r history ih => exact fun h => ih (postVerify_step py ed irregular h r).1

/-- **Which verifications are recorded.**  After every history of requests, one
more adds exactly one row for its tenant, with the result of the response, if and
only if its body is auditable. -/
theorem postVerify_recorded_iff (history : List Request) (r : Request) :
    Recorded py ed irregular (serve py ed irregular [] history) r ↔ r.body.Auditable :=
  (postVerify_step py ed irregular (LogInv.serve py ed irregular .nil) r).2

end Requests

/-- A body whose `ledger.sequence_id` is `2 ^ 63`. -/
def wideBody : Body :=
  .obj [(.ofString "ledger", .obj [(.ofString "sequence_id", .int 9223372036854775808)])]

/-- Its verification, by the tenant `acme`. -/
def wideRequest : Request where
  tenantId := "acme"
  traceId := "t-1"
  body := wideBody
  verifiedAt := "2026-01-01T00:00:00Z"
  recordedAt := "2026-01-01T00:00:00Z"

/-- Bodies that are no `Json` value fail the schema check. -/
def schemaFailure (now : String) (_ : Body) : Verdict := .ofJson plainPydantic (fun _ _ _ => false) now .null

/-- It is no proof. -/
theorem wideBody_parse : ∃ j, wideBody.toJson? = some j ∧ ProofV1.parse plainPydantic j = none :=
  ⟨.obj [("ledger", .obj [("sequence_id", .int 9223372036854775808)])], rfl, rfl⟩

/-- The first request to an empty log is answered with `valid=False` and leaves no
row: its number does not fit the column. -/
theorem wideRequest_unrecorded :
    (postVerify plainPydantic (fun _ _ _ => false) schemaFailure [] wideRequest).1.valid = false ∧
      ¬ Recorded plainPydantic (fun _ _ _ => false) schemaFailure [] wideRequest := by
  have hwide : ¬ fitsInteger 9223372036854775808 = true := by decide
  constructor
  · obtain ⟨j, hj, hparse⟩ := wideBody_parse
    have hbody : wideRequest.body.toJson? = some j := hj
    rw [postVerify_fst, Request.verify, hbody]
    simp only [verifyProofFull, Verdict.ofJson, verifyProof, hparse]
  · rw [(postVerify_step _ _ _ .nil _).2]
    intro h
    exact hwide (h.sequenceId (.int 9223372036854775808) _ rfl rfl)

end Audit
end ProvableAi
