/-
# The TypeScript verifier

`verifyProof` and `verifyChain` of `web/verifier.ts`, next to `verify_proof` and
`verify_chain`.  The steps are the same; what they look at is not.  Python parses
the document with `schema.py` and hashes what it parsed; TypeScript checks that
some fields are there and hashes the document ("Matches Python
build_hash_payload() exactly", says the comment).  So each accepts documents that
the other does not: Python fills in defaults, drops members it does not know and
lowers the case of hashes; TypeScript asks for no type, length or mode of most
fields and for no consistency between them.

A call that throws is `none`.  Ed25519 is one parameter: both libraries are taken
to verify the same signatures.  An exception of `@noble/ed25519` is reported like
a signature that does not verify.

`verifiers_agree` says where the two languages come to one verdict: on the lists
that are a signed chain for neither of them, and on those whose documents are all
`Regular`, that is written in the one way that both read alike.
-/

import ProvableAi.Web.CanonicalJson
import ProvableAi.Verifier.Written

namespace ProvableAi

namespace Web

/-! ### The language -/

/-- `String(x)` of a number that was read from this literal, which is kept for a fraction. -/
def numberText (literal : List Char) : Number → String
  | .infinite => "Infinity"
  | .fraction => String.ofList literal
  | .integer n => String.ofList (integerText n)

mutual
/-- `String(v)`: an object with a `toString` of its own cannot be converted. -/
def toStr : Json → Option String
  | .null => some "null"
  | .bool true => some "true"
  | .bool false => some "false"
  | .int n => some (numberText [] (parseInt n))
  | .float x => some (numberText x.text (parseFloat x))
  | .str s => some s
  | .arr xs => (itemTexts xs).map ",".intercalate
  | .obj kvs => if (kvs.lookup "toString").isSome then none else some "[object Object]"

/-- What `join` puts together of an array. -/
def itemTexts : List Json → Option (List String)
  | [] => some []
  | .null :: xs => do
    let ts ← itemTexts xs
    pure ("" :: ts)
  | x :: xs => do
    let t ← toStr x
    let ts ← itemTexts xs
    pure (t :: ts)
end

/-- `String(v)` and `${v}` of what may be `undefined`. -/
def template : Option Json → Option String
  | none => some "undefined"
  | some v => toStr v

/-- `String(v[k])`: nothing can be read of `null`. -/
def propText (v : Json) (k : String) : Option String := (Browser.prop v k).bind template

/-- A number that is an integer of at least one. -/
def sequenceNumber : Json → Option ℤ
  | .int n => positive (parseInt n)
  | .float x => positive (parseFloat x)
  | _ => none
where
  /-- `Number.isInteger(x) && x >= 1`. -/
  positive : Number → Option ℤ
    | .integer n => if 1 ≤ n then some n else none
    | _ => none

/-! ### The program -/

/-- `GovernanceInfo`. -/
structure GovernanceInfo where
  modelVersion : String
  agentVersion : String
  policyVersion : String
  determinismMode : String
  deriving DecidableEq

/-- `ReplayInfo`, without the fields that are always the same. -/
structure ReplayInfo where
  seedCaptured : Bool
  externalCallsRecorded : ℕ
  determinismMode : String
  deriving DecidableEq

/-- `FailureReason`. -/
structure FailureReason where
  type : String
  message : String
  sequenceId : ℤ
  expected : Option String
  stored : Option String
  keyId : Option String
  deriving DecidableEq

/-- `VerificationResult`, without `governance_verified`, which is always `false`. -/
structure VerificationResult where
  valid : Bool
  chainIntact : Bool
  sequenceVerified : ℤ
  finalState : Option String
  keyId : Option String
  verifiedAt : String
  governanceRecorded : Option GovernanceInfo
  replayResult : Option ReplayInfo
  failureReason : Option FailureReason
  deriving DecidableEq

/-- `REQUIRED_TOP_FIELDS`. -/
def requiredTopFields : List String :=
  ["type", "instance_id", "decision", "decision_context", "governance", "determinism", "ledger", "signature"]

/-- `REQUIRED_LEDGER_FIELDS`. -/
def requiredLedgerFields : List String := ["sequence_id", "previous_hash", "current_hash", "timestamp"]

/-- `REQUIRED_SIGNATURE_FIELDS`. -/
def requiredSignatureFields : List String := ["algorithm", "key_id", "public_key", "value"]

/-- The first of these names that an object does not have. -/
def missing (names : List String) (v : Json) : Option String := names.find? fun f => (v.get? f).isNone

/-- `v[k]` of an object that has it. -/
def field (v : Json) (k : String) : Json := (v.get? k).getD .null

/-- `isValidHex(v, n)`. -/
def isValidHex (v : Json) (n : ℕ) : Bool :=
  match v with
  | .str s => s.length == n && s.toList.all isHexDigit
  | _ => false

/-- The message of the first check that does not hold, if there is one. -/
def firstFailure : List (Bool × Option String) → Option (Option String)
  | [] => some none
  | (holds, message) :: rest => if holds then firstFailure rest else message.map some

/-- The check that no name is missing. -/
def present (names : List String) (v : Json) (what : String) : Bool × Option String :=
  ((missing names v).isNone, some ("Missing " ++ what ++ " field: \"" ++ (missing names v).getD "" ++ "\""))

/-- `validateStructure`: the error, if there is one. -/
def validateStructure (proof : Json) : Option (Option String) :=
  let l := field proof "ledger"
  let s := field proof "signature"
  firstFailure
    [(proof.isObj, some "Proof must be a JSON object"),
      present requiredTopFields proof "required",
      (field proof "type" = .str proofVersion,
        (toStr (field proof "type")).map fun t => "type must be \"zorynex-proof-v1\", got \"" ++ t ++ "\""),
      (l.isObj, some "ledger must be an object"),
      present requiredLedgerFields l "ledger",
      (s.isObj, some "signature must be an object"),
      present requiredSignatureFields s "signature",
      (isValidHex (field s "public_key") 64,
        some "signature.public_key must be 64 lowercase hex chars (32-byte Ed25519 public key)"),
      (isValidHex (field s "value") 128,
        some "signature.value must be 128 lowercase hex chars (64-byte Ed25519 signature)"),
      (isValidHex (field l "current_hash") 64, some "ledger.current_hash must be 64 hex chars"),
      ((sequenceNumber (field l "sequence_id")).isSome, some "ledger.sequence_id must be integer >= 1")]

/-- `buildHashPayload`. -/
def buildHashPayload (proof : Json) : Json :=
  let ledger := field proof "ledger"
  hashedContent (field proof "decision") (field proof "decision_context") (field proof "governance")
    (field proof "determinism") (field ledger "previous_hash") (field ledger "sequence_id")

/-- `computeProofId`. -/
def computeProofId (currentHash : String) (sequenceId : ℤ) : String :=
  sha256Hex (currentHash ++ ":" ++ String.ofList (integerText sequenceId))

/-- `fail`. -/
def fail (type message : String) (sequenceId : ℤ) (verifiedAt : String) (expected stored : Option String)
    (reasonKeyId keyId : Option String) : VerificationResult where
  valid := false
  chainIntact := false
  sequenceVerified := sequenceId
  finalState := none
  keyId := keyId
  verifiedAt := verifiedAt
  governanceRecorded := none
  replayResult := none
  failureReason := some ⟨type, message, sequenceId, expected, stored, reasonKeyId⟩

/-- The object of a success, from the proof it is read of. -/
def success (proof : Json) (sequenceVerified : ℤ) (verifiedAt finalState keyId : String) :
    Option VerificationResult := do
  let governance := field proof "governance"
  let determinism := field proof "determinism"
  let modelVersion ← propText governance "model_version"
  let agentVersion ← propText governance "agent_version"
  let policyVersion ← propText governance "policy_version"
  let mode ← propText determinism "mode"
  pure
    { valid := true
      chainIntact := true
      sequenceVerified := sequenceVerified
      finalState := some finalState
      keyId := some keyId
      verifiedAt := verifiedAt
      governanceRecorded := some ⟨modelVersion, agentVersion, policyVersion, mode⟩
      replayResult := some
        { seedCaptured := (determinism.get? "seed").any (· ≠ .null)
          externalCallsRecorded := if Browser.truthy (determinism.get? "external_calls_hash") then 1 else 0
          determinismMode := mode }
      failureReason := none }

section

variable (ed : Ed25519)

/-- Step 4: the link. -/
def linkFailure (now keyId prevHash : String) (seqId : ℤ) : Option String → Option VerificationResult
  | some expected =>
    if prevHash ≠ lower expected then
      some (fail "ChainBroken" ("Hash chain broken at sequence_id=" ++ String.ofList (integerText seqId) ++
        ". previous_hash does not match prior proof's current_hash.") seqId now (some expected) (some prevHash) none
        (some keyId))
    else none
  | none =>
    if seqId = 1 ∧ prevHash ≠ genesisHash then
      some (fail "ChainBroken" "First proof (sequence_id=1) must have previous_hash = genesis hash (64 zeros)." seqId now
        (some genesisHash) (some prevHash) none (some keyId))
    else none

/-- Step 5: the sequence number. -/
def sequenceFailure (now keyId : String) (seqId : ℤ) : Option ℤ → Option VerificationResult
  | some expected =>
    if seqId ≠ expected then
      let expectedText := String.ofList (integerText expected)
      let seqText := String.ofList (integerText seqId)
      some (fail "SequenceGap" ("Expected sequence_id=" ++ expectedText ++ ", got " ++ seqText ++ ".") seqId now
        (some expectedText) (some seqText) none (some keyId))
    else none
  | none => none

/-- Step 6: `proof_id`, if there is one. -/
def proofIdFailure (now keyId storedHash : String) (seqId : ℤ) (proofId : Option Json) :
    Option (Option VerificationResult) :=
  if Browser.truthy proofId then do
    let expectedId := computeProofId storedHash seqId
    let text ← template proofId
    if lower text ≠ expectedId then
      pure (some (fail "ProofIdMismatch" ("proof_id does not match expected '" ++ slice 16 expectedId ++ "...'.") seqId now
        (some expectedId) (some text) none (some keyId)))
    else pure none
  else pure none

/-- Steps 4 to 6 of `verifyProof`. -/
def verifyPosition (now : String) (proof : Json) (keyId finalState storedHash : String) (seqId : ℤ)
    (expectedPreviousHash : Option String) (expectedSequenceId : Option ℤ) : Option VerificationResult := do
  let prevHash ← propText (field proof "ledger") "previous_hash"
  match linkFailure now keyId (lower prevHash) seqId expectedPreviousHash with
  | some failure => pure failure
  | none =>
    match sequenceFailure now keyId seqId expectedSequenceId with
    | some failure => pure failure
    | none => do
      match ← proofIdFailure now keyId storedHash seqId (proof.get? "proof_id") with
      | some failure => pure failure
      | none => success proof seqId now finalState keyId

/-- `verifyProof`. -/
def verifyProof (now : String) (proof : Json) (expectedPreviousHash : Option String)
    (expectedSequenceId : Option ℤ) : Option VerificationResult := do
  match ← validateStructure proof with
  | some structErr => pure (fail "SchemaValidationError" structErr 0 now none none none none)
  | none =>
    let ledger := field proof "ledger"
    let sigObj := field proof "signature"
    let keyId ← propText sigObj "key_id"
    let seqId := (sequenceNumber (field ledger "sequence_id")).getD 0
    let finalState ← propText (field proof "decision") "to_state"
    let canonical ← canonicalJson (buildHashPayload proof)
    let recomputed := toHex (sha256 (textEncode canonical))
    let storedHash ← (propText ledger "current_hash").map lower
    let pubKeyHex ← (propText sigObj "public_key").map lower
    let sigHex ← (propText sigObj "value").map lower
    if recomputed ≠ storedHash then
      pure (fail "HashMismatch" ("Recomputed hash '" ++ slice 16 recomputed ++ "...' does not match stored hash '" ++
        slice 16 storedHash ++ "...'. Payload was modified after signing.") seqId now (some recomputed)
        (some storedHash) none (some keyId))
    else if !verifyEd25519 ed pubKeyHex ((fromHex storedHash).getD []) sigHex then
      pure (fail "SignatureMismatch" ("Ed25519 signature invalid for key '" ++ keyId ++
        "'. Signature does not verify against embedded public_key.") seqId now none none (some keyId) (some keyId))
    else verifyPosition now proof keyId finalState storedHash seqId expectedPreviousHash expectedSequenceId

/-- The loop of `verifyChain` from index `i` on: the first failure, if there is one. -/
def verifyChainFrom (now : String) : ℕ → String → List Json → Option (Option VerificationResult)
  | _, _, [] => some none
  | i, lastHash, proof :: rest => do
    let result ← verifyProof ed now proof (some lastHash) (some (i + 1))
    if result.valid then do
      let currentHash ← propText (field proof "ledger") "current_hash"
      verifyChainFrom now (i + 1) (lower currentHash) rest
    else pure (some result)

/-- `verifyChain`. -/
def verifyChain (now : String) (proofs : List Json) : Option VerificationResult := do
  match proofs.getLast? with
  | none => pure (fail "EmptyChain" "No proofs provided" 0 now none none none none)
  | some last =>
    match ← verifyChainFrom ed now 0 genesisHash proofs with
    | some failure => pure failure
    | none =>
      let finalState ← propText (field last "decision") "to_state"
      let keyId ← propText (field last "signature") "key_id"
      success last proofs.length now finalState keyId

/-- The call returns, with a result that is valid. -/
def Valid (r : Option VerificationResult) : Prop := ∃ v, r = some v ∧ v.valid = true

end

/-! ### What is accepted -/

section

variable {ed : Ed25519} {d : Json}

theorem valid_bind {α : Type} {x : Option α} {f : α → Option VerificationResult} :
    Valid (x >>= f) ↔ ∃ a, x = some a ∧ Valid (f a) := by
  cases x <;> simp [Valid]

theorem not_valid_fail {t m : String} {n : ℤ} {now : String} {e s r k : Option String} :
    ¬ Valid (pure (fail t m n now e s r k)) := fun ⟨_, h, hv⟩ => by
  obtain rfl := Option.some.inj h
  cases hv

/-- The versions and the mode can be written into the result. -/
structure Recordable (d : Json) : Prop where
  modelVersion : (propText (field d "governance") "model_version").isSome = true
  agentVersion : (propText (field d "governance") "agent_version").isSome = true
  policyVersion : (propText (field d "governance") "policy_version").isSome = true
  mode : (propText (field d "determinism") "mode").isSome = true

theorem success_valid_iff {n : ℤ} {now state key : String} : Valid (success d n now state key) ↔ Recordable d := by
  simp only [success, valid_bind]
  constructor
  · rintro ⟨m, hm, a, ha, p, hp, t, ht, -⟩
    exact ⟨by rw [hm]; rfl, by rw [ha]; rfl, by rw [hp]; rfl, by rw [ht]; rfl⟩
  · rintro ⟨hm, ha, hp, ht⟩
    obtain ⟨m, hm⟩ := Option.isSome_iff_exists.1 hm
    obtain ⟨a, ha⟩ := Option.isSome_iff_exists.1 ha
    obtain ⟨p, hp⟩ := Option.isSome_iff_exists.1 hp
    obtain ⟨t, ht⟩ := Option.isSome_iff_exists.1 ht
    exact ⟨m, hm, a, ha, p, hp, t, ht, _, rfl, rfl⟩

/-- What `validateStructure` asks for. -/
structure Shaped (d : Json) : Prop where
  isObj : d.isObj = true
  top : missing requiredTopFields d = none
  type : field d "type" = .str proofVersion
  ledger : (field d "ledger").isObj = true
  ledgerFields : missing requiredLedgerFields (field d "ledger") = none
  signature : (field d "signature").isObj = true
  signatureFields : missing requiredSignatureFields (field d "signature") = none
  publicKey : isValidHex (field (field d "signature") "public_key") 64 = true
  value : isValidHex (field (field d "signature") "value") 128 = true
  currentHash : isValidHex (field (field d "ledger") "current_hash") 64 = true
  sequenceId : (sequenceNumber (field (field d "ledger") "sequence_id")).isSome = true

theorem firstFailure_eq_none {cs : List (Bool × Option String)} :
    firstFailure cs = some none ↔ ∀ c ∈ cs, c.1 = true := by
  induction cs with
  | nil => simp [firstFailure]
  | cons c cs ih =>
    obtain ⟨holds, message⟩ := c
    cases holds with
    | true => simp [firstFailure, ih]
    | false => simp [firstFailure]

theorem validateStructure_eq_none : validateStructure d = some none ↔ Shaped d := by
  simp only [validateStructure, firstFailure_eq_none, List.forall_mem_cons, present, Option.isNone_iff_eq_none,
    decide_eq_true_eq]
  constructor
  · rintro ⟨h₁, h₂, h₃, h₄, h₅, h₆, h₇, h₈, h₉, h₁₀, h₁₁, -⟩
    exact ⟨h₁, h₂, h₃, h₄, h₅, h₆, h₇, h₈, h₉, h₁₀, h₁₁⟩
  · rintro ⟨h₁, h₂, h₃, h₄, h₅, h₆, h₇, h₈, h₉, h₁₀, h₁₁⟩
    exact ⟨h₁, h₂, h₃, h₄, h₅, h₆, h₇, h₈, h₉, h₁₀, h₁₁, by simp⟩

/-- A text that `isValidHex` takes. -/
theorem isValidHex_iff {v : Json} {n : ℕ} :
    isValidHex v n = true ↔ ∃ t, v = .str t ∧ t.length = n ∧ t.toList.all isHexDigit = true := by
  cases v <;> simp [isValidHex]

theorem field_of_get? {v w : Json} {k : String} (h : v.get? k = some w) : field v k = w := by
  rw [field, h]
  rfl

theorem propText_str {v : Json} {k t : String} (h : v.get? k = some (.str t)) : propText v k = some t := by
  have hv : v ≠ .null := by
    rintro rfl
    cases h
  rw [propText, Browser.prop, if_neg hv, h]
  rfl

/-- `ledger.current_hash`, lowered. -/
def hashText (d : Json) : String := lower ((propText (field d "ledger") "current_hash").getD "")

/-- The key and the signature, lowered. -/
def keyTexts (d : Json) : String × String :=
  (lower ((propText (field d "signature") "public_key").getD ""),
    lower ((propText (field d "signature") "value").getD ""))

/-- `Number(ledger["sequence_id"])`. -/
def seqNumber (d : Json) : ℤ := (sequenceNumber (field (field d "ledger") "sequence_id")).getD 0

/-- `proof_id` is missing, empty or right. -/
def ProofIdOk (d : Json) : Prop :=
  Browser.truthy (d.get? "proof_id") = true →
    ∃ t, template (d.get? "proof_id") = some t ∧ lower t = computeProofId (hashText d) (seqNumber d)

/-- What `verifyProof` accepts, in the words of the document. -/
structure Accepts (ed : Ed25519) (d : Json) (prev : Option String) (seq : Option ℤ) : Prop where
  shaped : Shaped d
  keyId : (propText (field d "signature") "key_id").isSome = true
  finalState : (propText (field d "decision") "to_state").isSome = true
  hash : ∃ us, canonicalJson (buildHashPayload d) = some us ∧ toHex (sha256 (textEncode us)) = hashText d
  signature : verifyEd25519 ed (keyTexts d).1 ((fromHex (hashText d)).getD []) (keyTexts d).2 = true
  link : ∃ t, propText (field d "ledger") "previous_hash" = some t ∧
    (∀ h ∈ prev, lower t = lower h) ∧ (prev = none → seqNumber d = 1 → lower t = genesisHash)
  sequence : ∀ n ∈ seq, seqNumber d = n
  proofId : ProofIdOk d
  recordable : Recordable d

theorem linkFailure_eq_none {now key t : String} {n : ℤ} {prev : Option String} :
    linkFailure now key t n prev = none ↔ (∀ h ∈ prev, t = lower h) ∧ (prev = none → n = 1 → t = genesisHash) := by
  cases prev with
  | none => simp [linkFailure]
  | some h => simp [linkFailure]

theorem sequenceFailure_eq_none {now key : String} {n : ℤ} {seq : Option ℤ} :
    sequenceFailure now key n seq = none ↔ ∀ m ∈ seq, n = m := by
  cases seq with
  | none => simp [sequenceFailure]
  | some m => simp [sequenceFailure]

theorem proofIdFailure_valid {now key h : String} {n : ℤ} {v : Option Json} {r : Option VerificationResult} :
    proofIdFailure now key h n v = some r → (r = none ↔ (Browser.truthy v = true →
      ∃ t, template v = some t ∧ lower t = computeProofId h n)) ∧ ∀ f ∈ r, f.valid = false := by
  intro hr
  rw [proofIdFailure] at hr
  split_ifs at hr with ht
  · obtain ⟨t, htext, hr⟩ := Option.bind_eq_some_iff.1 hr
    split_ifs at hr with hne
    · obtain rfl := Option.some.inj hr
      simp only [reduceCtorEq, ht, true_imp_iff, htext, Option.some.injEq, false_iff, not_exists]
      refine ⟨?_, by rintro _ ⟨⟩; rfl⟩
      rintro _ ⟨rfl, h⟩
      exact hne h
    · obtain rfl := Option.some.inj hr
      exact ⟨iff_of_true rfl fun _ => ⟨t, htext, not_not.1 hne⟩, by rintro _ ⟨⟩⟩
  · obtain rfl := Option.some.inj hr
    exact ⟨iff_of_true rfl fun h => absurd h ht, by rintro _ ⟨⟩⟩

theorem proofIdFailure_eq_none {now key h : String} {n : ℤ} {v : Option Json} :
    proofIdFailure now key h n v = some none ↔ (Browser.truthy v = true →
      ∃ t, template v = some t ∧ lower t = computeProofId h n) := by
  constructor
  · exact fun hr => (proofIdFailure_valid hr).1.1 rfl
  · intro hok
    rw [proofIdFailure]
    split_ifs with ht
    · obtain ⟨t, htext, h⟩ := hok ht
      simp [htext, h]
    · rfl

theorem linkFailure_fails {now key t : String} {n : ℤ} {prev : Option String} {f : VerificationResult}
    (h : linkFailure now key t n prev = some f) : f.valid = false := by
  cases prev with
  | none =>
    rw [linkFailure] at h
    split_ifs at h
    rw [← Option.some.inj h]
    rfl
  | some p =>
    rw [linkFailure] at h
    split_ifs at h
    rw [← Option.some.inj h]
    rfl

theorem sequenceFailure_fails {now key : String} {n : ℤ} {seq : Option ℤ} {f : VerificationResult}
    (h : sequenceFailure now key n seq = some f) : f.valid = false := by
  cases seq with
  | none => cases h
  | some m =>
    rw [sequenceFailure] at h
    split_ifs at h
    rw [← Option.some.inj h]
    rfl

theorem not_valid_pure {f : VerificationResult} (h : f.valid = false) : ¬ Valid (pure f) := by
  rintro ⟨_, hf, hv⟩
  obtain rfl := Option.some.inj hf
  rw [h] at hv
  cases hv

theorem verifyPosition_valid_iff {now key state h : String} {n : ℤ} {prev : Option String} {seq : Option ℤ} :
    Valid (verifyPosition now d key state h n prev seq) ↔
      (∃ t, propText (field d "ledger") "previous_hash" = some t ∧
        (∀ h ∈ prev, lower t = lower h) ∧ (prev = none → n = 1 → lower t = genesisHash)) ∧
      (∀ m ∈ seq, n = m) ∧ (Browser.truthy (d.get? "proof_id") = true →
        ∃ t, template (d.get? "proof_id") = some t ∧ lower t = computeProofId h n) ∧ Recordable d := by
  simp only [verifyPosition, valid_bind]
  constructor
  · rintro ⟨t, ht, hv⟩
    cases hl : linkFailure now key (lower t) n prev with
    | some f => rw [hl] at hv; exact absurd hv (not_valid_pure (linkFailure_fails hl))
    | none =>
      rw [hl] at hv
      cases hs : sequenceFailure now key n seq with
      | some f => rw [hs] at hv; exact absurd hv (not_valid_pure (sequenceFailure_fails hs))
      | none =>
        simp only [hs, valid_bind] at hv
        obtain ⟨r, hr, hv⟩ := hv
        cases r with
        | some f => exact absurd hv (not_valid_pure ((proofIdFailure_valid hr).2 f rfl))
        | none =>
          exact ⟨⟨t, ht, linkFailure_eq_none.1 hl⟩, sequenceFailure_eq_none.1 hs, proofIdFailure_eq_none.1 hr,
            success_valid_iff.1 hv⟩
  · rintro ⟨⟨t, ht, hl⟩, hs, hr, hrec⟩
    refine ⟨t, ht, ?_⟩
    rw [linkFailure_eq_none.2 hl, sequenceFailure_eq_none.2 hs]
    simp only [valid_bind]
    exact ⟨none, proofIdFailure_eq_none.2 hr, success_valid_iff.2 hrec⟩

/-- The texts that `isValidHex` has checked are there. -/
theorem Shaped.texts (h : Shaped d) :
    propText (field d "ledger") "current_hash" = some ((propText (field d "ledger") "current_hash").getD "") ∧
    propText (field d "signature") "public_key" = some ((propText (field d "signature") "public_key").getD "") ∧
    propText (field d "signature") "value" = some ((propText (field d "signature") "value").getD "") := by
  have hread : ∀ {v : Json} {k : String} {n : ℕ}, isValidHex (field v k) n = true →
      propText v k = some ((propText v k).getD "") := by
    intro v k n hv
    obtain ⟨t, ht, -⟩ := isValidHex_iff.1 hv
    have hget : v.get? k = some (.str t) := by
      rw [field] at ht
      cases hg : v.get? k with
      | none => rw [hg] at ht; cases ht
      | some w => rw [hg] at ht; exact congrArg some ht
    rw [propText_str hget]
    rfl
  exact ⟨hread h.currentHash, hread h.publicKey, hread h.value⟩

/-- **What `verifyProof` accepts.** -/
theorem verifyProof_valid_iff {now : String} {prev : Option String} {seq : Option ℤ} :
    Valid (verifyProof ed now d prev seq) ↔ Accepts ed d prev seq := by
  rw [verifyProof, valid_bind]
  constructor
  · rintro ⟨r, hr, hv⟩
    cases r with
    | some err => exact absurd hv not_valid_fail
    | none =>
      have hshaped := validateStructure_eq_none.1 hr
      simp only [valid_bind, Option.map_eq_some_iff] at hv
      obtain ⟨key, hkey, state, hstate, us, hus, _, ⟨c, hc, rfl⟩, _, ⟨k, hk, rfl⟩, _, ⟨v, hv', rfl⟩, hv⟩ := hv
      split_ifs at hv with hne hsig
      · exact absurd hv not_valid_fail
      · exact absurd hv not_valid_fail
      · obtain ⟨hlink, hseq, hid, hrec⟩ := verifyPosition_valid_iff.1 hv
        have hhash : hashText d = lower c := by rw [hashText, hc]; rfl
        have hkeys : keyTexts d = (lower k, lower v) := by rw [keyTexts, hk, hv']; rfl
        refine ⟨hshaped, by rw [hkey]; rfl, by rw [hstate]; rfl, ⟨us, hus, ?_⟩, ?_, hlink, hseq, ?_, hrec⟩
        · rw [hhash]
          exact not_not.1 hne
        · rw [hhash, hkeys]
          simpa using hsig
        · rw [ProofIdOk, hhash]
          exact hid
  · intro h
    refine ⟨none, validateStructure_eq_none.2 h.shaped, ?_⟩
    obtain ⟨hc, hk, hv⟩ := h.shaped.texts
    obtain ⟨key, hkey⟩ := Option.isSome_iff_exists.1 h.keyId
    obtain ⟨state, hstate⟩ := Option.isSome_iff_exists.1 h.finalState
    obtain ⟨us, hus, hhash⟩ := h.hash
    simp only [valid_bind, Option.map_eq_some_iff]
    refine ⟨key, hkey, state, hstate, us, hus, _, ⟨_, hc, rfl⟩, _, ⟨_, hk, rfl⟩, _, ⟨_, hv, rfl⟩, ?_⟩
    have hsig := h.signature
    rw [hashText] at hhash hsig
    rw [if_neg (not_not.2 hhash), if_neg (by simpa [keyTexts] using hsig)]
    exact verifyPosition_valid_iff.2 ⟨h.link, h.sequence, h.proofId, h.recordable⟩

/-- A signed chain in the eyes of `verifyChain`: every document is accepted at its place. -/
def Chained (ed : Ed25519) : ℕ → String → List Json → Prop
  | _, _, [] => True
  | i, h, d :: ds => Accepts ed d (some h) (some (i + 1)) ∧ Chained ed (i + 1) (hashText d) ds

theorem verifyChainFrom_eq_none {now : String} {ds : List Json} : ∀ {i : ℕ} {h : String},
    verifyChainFrom ed now i h ds = some none ↔ Chained ed i h ds := by
  induction ds with
  | nil => intro i h; exact iff_of_true rfl trivial
  | cons d ds ih =>
    intro i h
    simp only [verifyChainFrom, Option.bind_eq_bind, Option.bind_eq_some_iff, Chained]
    constructor
    · rintro ⟨r, hr, hrest⟩
      split_ifs at hrest with hv
      · have hacc := verifyProof_valid_iff.1 ⟨r, hr, hv⟩
        obtain ⟨c, hc, hrest⟩ := Option.bind_eq_some_iff.1 hrest
        have hhash : hashText d = lower c := by rw [hashText, hc]; rfl
        rw [hhash]
        exact ⟨hacc, ih.1 hrest⟩
      · cases hrest
    · rintro ⟨hacc, hrest⟩
      obtain ⟨r, hr, hv⟩ : Valid (verifyProof ed now d (some h) (some (i + 1))) := verifyProof_valid_iff.2 hacc
      refine ⟨r, hr, ?_⟩
      rw [if_pos hv]
      exact Option.bind_eq_some_iff.2 ⟨_, hacc.shaped.texts.1, ih.2 hrest⟩

theorem Chained.accepts_mem {ds : List Json} : ∀ {i : ℕ} {h : String}, Chained ed i h ds →
    ∀ d ∈ ds, ∃ prev seq, Accepts ed d prev seq := by
  induction ds with
  | nil => simp
  | cons d ds ih =>
    intro i h hc
    exact List.forall_mem_cons.2 ⟨⟨_, _, hc.1⟩, ih hc.2⟩

theorem verifyChainFrom_fails {now : String} {ds : List Json} {f : VerificationResult} : ∀ {i : ℕ} {h : String},
    verifyChainFrom ed now i h ds = some (some f) → f.valid = false := by
  induction ds with
  | nil => intro i h hf; cases hf
  | cons d ds ih =>
    intro i h hf
    simp only [verifyChainFrom, Option.bind_eq_bind, Option.bind_eq_some_iff] at hf
    obtain ⟨r, -, hf⟩ := hf
    split_ifs at hf with hv
    · obtain ⟨c, -, hf⟩ := Option.bind_eq_some_iff.1 hf
      exact ih hf
    · obtain rfl := Option.some.inj (Option.some.inj hf)
      exact Bool.not_eq_true _ ▸ hv

/-- **What `verifyChain` accepts.** -/
theorem verifyChain_valid_iff {now : String} {ds : List Json} :
    Valid (verifyChain ed now ds) ↔ ds ≠ [] ∧ Chained ed 0 genesisHash ds := by
  by_cases hne : ds = []
  · subst hne
    exact iff_of_false not_valid_fail fun h => h.1 rfl
  · simp only [verifyChain, List.getLast?_eq_some_getLast hne, valid_bind]
    constructor
    · rintro ⟨r, hr, hv⟩
      cases r with
      | some f => exact absurd hv (not_valid_pure (verifyChainFrom_fails hr))
      | none => exact ⟨hne, verifyChainFrom_eq_none.1 hr⟩
    · rintro ⟨-, hc⟩
      obtain ⟨prev, seq, hacc⟩ := hc.accepts_mem _ (List.getLast_mem hne)
      obtain ⟨state, hstate⟩ := Option.isSome_iff_exists.1 hacc.finalState
      obtain ⟨key, hkey⟩ := Option.isSome_iff_exists.1 hacc.keyId
      refine ⟨none, verifyChainFrom_eq_none.2 hc, ?_⟩
      simp only [valid_bind]
      exact ⟨state, hstate, key, hkey, success_valid_iff.2 hacc.recordable⟩

/-! ### Documents that both read alike -/

/-- `canonicalJson` and `canonical_encode` write the same bytes, or both raise. -/
def EncodersAgree (v : Json) : Prop :=
  (canonicalJson v).map textEncode = (canonicalEncode v.toPy).toOption.map utf8

/-- What is compared: documents without repeated keys on whose payload the encoders
agree, with a `sequence_id` that a double holds. -/
structure Document (d : Json) : Prop where
  wf : d.wf = true
  encoders : EncodersAgree (buildHashPayload d)
  sequenceId : ∀ n, field (field d "ledger") "sequence_id" = .int n → n.natAbs ≤ 9007199254740991

/-- A document in the one form that both programs read alike. -/
structure Regular (py : Pydantic) (d : Json) : Prop where
  /-- `schema.py` takes it, and its determinism fields are consistent. -/
  parses : ∃ p, ProofV1.parse py d = some p ∧ validateDeterminismConsistency p.determinism = none
  /-- The members with a default outside of the sections are written. -/
  type : (d.get? "type").isSome = true
  algorithm : ((field d "signature").get? "algorithm").isSome = true
  /-- `sequence_id` is an integer, not what pydantic takes for one. -/
  sequenceId : ∃ n, field (field d "ledger") "sequence_id" = .int n
  /-- `previous_hash` is written in lower case. -/
  previousHash : ∃ t, field (field d "ledger") "previous_hash" = .str t ∧ lower t = t
  inFull : InFull d
  proofId : ProofIdOk d

theorem canonicalEncode_toPy (v : Json) :
    (canonicalEncode v.toPy).toOption = if v.floatFree then some (dumps v) else none := by
  have hv := validatePayload_ok_iff v.toPy "root"
  rw [v.toJson?_toPy] at hv
  rw [canonicalEncode, v.toJson?_toPy]
  cases hf : v.floatFree with
  | true =>
    rw [hf] at hv
    rw [hv.2 rfl]
    rfl
  | false =>
    rw [hf] at hv
    cases hp : validatePayload "root" v.toPy with
    | ok u => exact absurd (hv.1 hp) (by simp)
    | error e => rfl

/-- The hash of a payload on which the encoders agree. -/
theorem EncodersAgree.hash_iff {v : Json} (h : EncodersAgree v) {x : String} :
    (∃ us, canonicalJson v = some us ∧ toHex (sha256 (textEncode us)) = x) ↔
      v.floatFree = true ∧ sha256Hex (dumps v) = x := by
  rw [EncodersAgree, canonicalEncode_toPy] at h
  constructor
  · rintro ⟨us, hus, hx⟩
    rw [hus] at h
    split_ifs at h with hf
    · rw [← hx, Option.some.inj h]
      exact ⟨hf, rfl⟩
    · cases h
  · rintro ⟨hf, hx⟩
    rw [if_pos hf] at h
    obtain ⟨us, hus, hbytes⟩ := Option.map_eq_some_iff.1 h
    exact ⟨us, hus, by rw [hbytes]; exact hx⟩

theorem sequenceNumber_int {n : ℤ} (hb : n.natAbs ≤ 9007199254740991) (hn : 1 ≤ n) :
    sequenceNumber (.int n) = some n := by
  rw [sequenceNumber, parseInt_of_safe hb, sequenceNumber.positive, if_pos hn]

variable {py : Pydantic} {p : ProofV1}

/-- The payload that TypeScript hashes, where the sequence number is an integer. -/
theorem buildHashPayload_eq {t : String} {n : ℤ} (ht : field (field d "ledger") "previous_hash" = .str t)
    (hn : field (field d "ledger") "sequence_id" = .int n) :
    buildHashPayload d = hashPayload (Section.decision.written d) (Section.decisionContext.written d)
      (Section.governance.written d) (Section.determinism.written d) t n := by
  rw [buildHashPayload, ht, hn]
  rfl

/-- **Both programs hash a regular document alike.** -/
theorem Regular.payload_canon (h : Regular py d) (hd : Document d) (hp : ProofV1.parse py d = some p) :
    (buildHashPayload d).canon = p.payload.canon := by
  obtain ⟨n, hn⟩ := h.sequenceId
  obtain ⟨t, ht, hlow⟩ := h.previousHash
  obtain ⟨l, hl, ⟨v, hv, hlax⟩, ⟨u, hu, hprev⟩, -⟩ := ledger_of_parse hp
  rw [field_of_get? hl] at hn ht
  obtain rfl : v = .int n := (field_of_get? hv).symm.trans hn
  obtain rfl : u = t := Json.str.inj ((field_of_get? hu).symm.trans ht)
  obtain rfl : p.ledger.sequenceId = n := Option.some.inj (hlax.symm.trans (py.laxInt_int n))
  have hsections := (inFull_iff hd.wf hp).1 h.inFull
  rw [buildHashPayload_eq (by rw [field_of_get? hl]; exact ht) (by rw [field_of_get? hl]; exact hn), ProofV1.payload,
    hashPayload_canon, hashPayload_canon, hsections .decision, hsections .decisionContext, hsections .governance,
    hsections .determinism, hprev, hlow]
  rfl

/-- The place of a proof that both programs are asked about: alone, or in a chain. -/
def Place (prev : Option String) (seq : Option ℤ) : Prop :=
  (prev = none ∧ seq = none) ∨
    ∃ (i : ℕ) (h : String), prev = some h ∧ seq = some ((i : ℤ) + 1) ∧ lower h = h ∧ (i = 0 → h = genesisHash)

/-- What TypeScript reads of a document that `schema.py` takes. -/
theorem hashText_of_parse (hp : ProofV1.parse py d = some p) : hashText d = p.ledger.currentHash.text := by
  obtain ⟨l, hl, -, -, ⟨t, ht, hcur⟩, -⟩ := ledger_of_parse hp
  rw [hashText, field_of_get? hl, propText_str ht, hcur]
  rfl

theorem keyTexts_of_parse (hp : ProofV1.parse py d = some p) :
    keyTexts d = (p.signature.publicKey.text, p.signature.value.text) := by
  obtain ⟨s, hs, -, ⟨t, ht, hpk⟩, ⟨u, hu, hval⟩⟩ := signature_of_parse hp
  rw [keyTexts, field_of_get? hs, propText_str ht, propText_str hu, hpk, hval]
  rfl

theorem Regular.seqNumber_eq (h : Regular py d) (hd : Document d) (hp : ProofV1.parse py d = some p) :
    seqNumber d = p.ledger.sequenceId := by
  obtain ⟨n, hn⟩ := h.sequenceId
  have hb := hd.sequenceId n hn
  obtain ⟨l, hl, ⟨v, hv, hlax⟩, -⟩ := ledger_of_parse hp
  rw [field_of_get? hl] at hn
  obtain rfl : v = .int n := (field_of_get? hv).symm.trans hn
  obtain rfl : p.ledger.sequenceId = n := Option.some.inj (hlax.symm.trans (py.laxInt_int n))
  rw [seqNumber, field_of_get? hl, field_of_get? hv, sequenceNumber_int hb p.ledger.sequenceId_pos]
  rfl

/-- The link and the number are checked alike, for a proof at its place. -/
theorem position_iff {prev : Option String} {seq : Option ℤ} (hplace : Place prev seq)
    (hp : ProofV1.parse py d = some p) (hseq : seqNumber d = p.ledger.sequenceId) :
    ((∃ t, propText (field d "ledger") "previous_hash" = some t ∧
        (∀ h ∈ prev, lower t = lower h) ∧ (prev = none → seqNumber d = 1 → lower t = genesisHash)) ∧
      ∀ n ∈ seq, seqNumber d = n) ↔
    ((∀ h ∈ prev, p.ledger.previousHash.text = h) ∧
      (p.ledger.sequenceId = 1 → p.ledger.previousHash.text = genesisHash) ∧ ∀ n ∈ seq, p.ledger.sequenceId = n) := by
  obtain ⟨l, hl, -, ⟨t, ht, hprev⟩, -⟩ := ledger_of_parse hp
  have htext : propText (field d "ledger") "previous_hash" = some t := by
    rw [field_of_get? hl]
    exact propText_str ht
  rw [hseq, hprev, htext]
  simp only [Option.some.injEq, exists_eq_left']
  obtain ⟨rfl, rfl⟩ | ⟨i, h, rfl, rfl, hlow, hgen⟩ := hplace
  · simp
  · simp only [Option.mem_def, Option.some.injEq, forall_eq', hlow, reduceCtorEq, IsEmpty.forall_iff, and_true]
    refine ⟨fun ⟨h₁, h₂⟩ => ⟨h₁, fun hone => ?_, h₂⟩, fun ⟨h₁, _, h₂⟩ => ⟨h₁, h₂⟩⟩
    exact h₁.trans (hgen (by omega))

/-- The signature is checked alike. -/
theorem signature_iff (hp : ProofV1.parse py d = some p) (hhash : p.ledger.currentHash.text = sha256Hex (dumps p.payload)) :
    verifyEd25519 ed (keyTexts d).1 ((fromHex (hashText d)).getD []) (keyTexts d).2 = true ↔
      verifyEd25519 ed p.signature.publicKey.text (sha256 (utf8 (dumps p.payload))) p.signature.value.text = true := by
  rw [hashText_of_parse hp, keyTexts_of_parse hp, hhash, fromHex_sha256Hex]
  rfl

theorem missing_eq_none {names : List String} {v : Json} :
    missing names v = none ↔ ∀ f ∈ names, (v.get? f).isSome = true := by
  simp [missing, List.find?_eq_none, Option.isSome_iff_ne_none]

/-- PyNaCl takes keys of 32 and signatures of 64 bytes. -/
def Sized (ed : Ed25519) : Prop := ∀ pk m s, ed pk m s = true → pk.length = 32 ∧ s.length = 64

/-- A key and a signature that verify are hexadecimal digits. -/
theorem digits_of_verifies (hed : Sized ed) {pk sig : String} {m : Bytes} (hpk : pk.length = 64) (hsig : sig.length = 128)
    (h : verifyEd25519 ed pk m sig = true) :
    pk.toList.all isHexDigit = true ∧ sig.toList.all isHexDigit = true := by
  rw [verifyEd25519] at h
  cases hp : fromHex pk with
  | none => rw [hp] at h; cases h
  | some pub =>
    cases hs : fromHex sig with
    | none => rw [hp, hs] at h; cases h
    | some val =>
      rw [hp, hs] at h
      obtain ⟨h₁, h₂⟩ := hed _ _ _ h
      exact ⟨fromHex_digits hp (by rw [hpk, h₁]), fromHex_digits hs (by rw [hsig, h₂])⟩

/-- A member without a default is written as it is dumped. -/
theorem propText_of_parse (hp : ProofV1.parse py d = some p) (s : Section) (f : String) {t : String}
    (hf : f ∈ s.fields ∧ f ≠ "inputs_hash" ∧ f ∉ s.optional) (ht : (s.dump p).get? f = some (.str t)) :
    (propText (field d s.key) f).isSome = true := by
  rcases (ProofV1.readAs hp s).known f hf.1 hf.2.1 with ⟨hopt, -⟩ | heq
  · exact absurd hopt hf.2.2
  · have hget : (field d s.key).get? f = some (.str t) := heq.trans ht
    rw [propText_str hget]
    rfl

theorem recordable_of_parse (hp : ProofV1.parse py d = some p) : Recordable d :=
  ⟨propText_of_parse hp .governance "model_version" (by decide) rfl,
    propText_of_parse hp .governance "agent_version" (by decide) rfl,
    propText_of_parse hp .governance "policy_version" (by decide) rfl,
    propText_of_parse hp .determinism "mode" (by decide) rfl⟩

/-- The structure that TypeScript asks for, of a regular document that Python accepts. -/
theorem Regular.shaped (h : Regular py d) (hd : Document d) (hed : Sized ed) (hp : ProofV1.parse py d = some p)
    (hg : Genuine ed p) : Shaped d := by
  obtain ⟨l, hl, ⟨v, hv, -⟩, ⟨t, ht, -⟩, ⟨c, hc, hcur⟩, hts⟩ := ledger_of_parse hp
  obtain ⟨s, hs, hk, ⟨u, hu, hpk⟩, ⟨w, hw, hval⟩⟩ := signature_of_parse hp
  have hfl := field_of_get? hl
  have hfs := field_of_get? hs
  have hsections : ∀ s : Section, (d.get? s.key).isSome = true := by
    intro s
    have hobj := (ProofV1.readAs hp s).isObj
    rw [Section.written] at hobj
    cases hg : d.get? s.key with
    | none => rw [hg] at hobj; cases hobj
    | some x => rfl
  have hread : (∃ x, d.get? "instance_id" = some x) ∧ ProofV1.typeField d = some () := by
    simp only [ProofV1.parse, Option.bind_eq_bind, Option.bind_eq_some_iff] at hp
    obtain ⟨⟨⟩, hty, i, hi, -⟩ := hp
    exact ⟨⟨_, Json.strField_eq_some.1 hi⟩, hty⟩
  obtain ⟨⟨x, hid⟩, hty⟩ := hread
  have htype : field d "type" = .str proofVersion := by
    obtain ⟨y, hy⟩ := Option.isSome_iff_exists.1 h.type
    rw [ProofV1.typeField, hy] at hty
    rw [field_of_get? hy]
    cases y with
    | str z =>
      simp only [Option.ite_none_right_eq_some, and_true] at hty
      rw [hty]
    | _ => cases hty
  have hulen : u.length = 64 := by rw [← lower_length, ← hpk]; exact p.signature.publicKey.text_length
  have hwlen : w.length = 128 := by rw [← lower_length, ← hval]; exact p.signature.value.text_length
  have hclen : c.length = 64 := by rw [← lower_length, ← hcur]; exact p.ledger.currentHash.text_length
  have hdigits := digits_of_verifies hed p.signature.publicKey.text_length p.signature.value.text_length hg.signature
  rw [hpk, hval, all_isHexDigit_lower, all_isHexDigit_lower] at hdigits
  have hcdigits : c.toList.all isHexDigit = true := by
    rw [← all_isHexDigit_lower, ← hcur, hg.hash_eq, List.all_eq_true]
    exact fun x hx => lowerHex_isHexDigit (List.all_eq_true.1 (sha256Hex_lower _) x hx)
  have hseq := h.seqNumber_eq hd hp
  refine
    { isObj := Json.isObj_of_get? hl
      top := missing_eq_none.2 ?_
      type := htype
      ledger := by rw [hfl]; exact Json.isObj_of_get? hv
      ledgerFields := by
        rw [hfl, missing_eq_none]
        simp [requiredLedgerFields, hv, ht, hc, hts]
      signature := by rw [hfs]; exact Json.isObj_of_get? hk
      signatureFields := by
        have halg := h.algorithm
        rw [hfs] at halg ⊢
        rw [missing_eq_none]
        simp [requiredSignatureFields, halg, hk, hu, hw]
      publicKey := by
        rw [hfs, field_of_get? hu]
        exact isValidHex_iff.2 ⟨u, rfl, hulen, hdigits.1⟩
      value := by
        rw [hfs, field_of_get? hw]
        exact isValidHex_iff.2 ⟨w, rfl, hwlen, hdigits.2⟩
      currentHash := by
        rw [hfl, field_of_get? hc]
        exact isValidHex_iff.2 ⟨c, rfl, hclen, hcdigits⟩
      sequenceId := ?_ }
  · simp only [requiredTopFields, List.forall_mem_cons]
    exact ⟨h.type, by rw [hid]; rfl, hsections .decision, hsections .decisionContext, hsections .governance,
      hsections .determinism, by rw [hl]; rfl, by rw [hs]; rfl, by simp⟩
  · have hpos := p.ledger.sequenceId_pos
    rw [← hseq, seqNumber] at hpos
    cases hn : sequenceNumber (field (field d "ledger") "sequence_id") with
    | none => rw [hn] at hpos; exact absurd hpos (by decide)
    | some n => rfl

/-- **The two programs agree on a regular document.** -/
theorem Regular.accepts_iff (h : Regular py d) (hd : Document d) (hed : Sized ed) (now : String)
    {prev : Option String} {seq : Option ℤ} (hplace : Place prev seq) :
    Accepts ed d prev seq ↔ (ProvableAi.verifyProof py ed now d prev seq).valid = true := by
  obtain ⟨p, hp, hdet⟩ := h.parses
  have hcanon := h.payload_canon hd hp
  have hdumps : dumps (buildHashPayload d) = dumps p.payload := by rw [← dumps_canon, hcanon, dumps_canon]
  have hfloat : (buildHashPayload d).floatFree = p.payload.floatFree := by
    rw [← Json.floatFree_canon, hcanon, Json.floatFree_canon]
  have hseq := h.seqNumber_eq hd hp
  rw [ProvableAi.verifyProof_valid_iff]
  constructor
  · intro hacc
    obtain ⟨hff, hhash⟩ := hd.encoders.hash_iff.1 hacc.hash
    rw [hdumps, hashText_of_parse hp] at hhash
    rw [hfloat] at hff
    obtain ⟨hprev, hgenesis, hnum⟩ := (position_iff hplace hp hseq).1 ⟨hacc.link, hacc.sequence⟩
    exact ⟨p, hp, ⟨hff, hhash.symm, (signature_iff hp hhash.symm).1 hacc.signature, hdet⟩, hprev, hgenesis, hnum⟩
  · rintro ⟨q, hq, hg, hpos⟩
    obtain rfl := Option.some.inj (hp.symm.trans hq)
    obtain ⟨hlink, hnum⟩ := (position_iff hplace hp hseq).2 hpos
    obtain ⟨s, hs, hk, -⟩ := signature_of_parse hp
    refine
      { shaped := h.shaped hd hed hp hg
        keyId := by rw [field_of_get? hs, propText_str hk]; rfl
        finalState := propText_of_parse hp .decision "to_state" (by decide) rfl
        hash := hd.encoders.hash_iff.2 ⟨hfloat.trans hg.floatFree, ?_⟩
        signature := (signature_iff hp hg.hash_eq).2 hg.signature
        link := hlink
        sequence := hnum
        proofId := h.proofId
        recordable := recordable_of_parse hp }
    rw [hdumps, hashText_of_parse hp, hg.hash_eq]

/-- A document that both programs accept is regular. -/
theorem regular_of_both (hd : Document d) {now : String} {prev : Option String} {seq : Option ℤ}
    (hacc : Accepts ed d prev seq) (hv : (ProvableAi.verifyProof py ed now d prev seq).valid = true)
    (hsha : ∀ q, ProofV1.parse py d = some q → sha256Hex (dumps (buildHashPayload d)) = sha256Hex (dumps q.payload) →
      dumps (buildHashPayload d) = dumps q.payload) : Regular py d := by
  obtain ⟨p, hp, hg, -⟩ := (ProvableAi.verifyProof_valid_iff py ed).1 hv
  obtain ⟨hff, hhash⟩ := hd.encoders.hash_iff.1 hacc.hash
  rw [hashText_of_parse hp, hg.hash_eq] at hhash
  have hdumps := hsha p hp hhash
  obtain ⟨l, hl, ⟨v, hv, -⟩, ⟨t, ht, hprev⟩, -⟩ := ledger_of_parse hp
  have hfl := field_of_get? hl
  have hfv : field (field d "ledger") "sequence_id" = v := by rw [hfl, field_of_get? hv]
  have hft : field (field d "ledger") "previous_hash" = .str t := by rw [hfl, field_of_get? ht]
  -- a number that is no integer would not have been written
  obtain ⟨n, rfl⟩ : ∃ n, v = .int n := by
    have hnum := hacc.shaped.sequenceId
    rw [hfv] at hnum
    cases v with
    | int n => exact ⟨n, rfl⟩
    | float x =>
      rw [buildHashPayload, hfv, hashedContent, Json.floatFree_obj] at hff
      exact absurd (hff ("sequence_id", .float x) (by simp)) (by simp [Json.floatFree])
    | _ => cases hnum
  rw [buildHashPayload_eq hft hfv] at hdumps
  have hwf : (hashPayload (Section.decision.written d) (Section.decisionContext.written d)
      (Section.governance.written d) (Section.determinism.written d) t n).wf = true :=
    hashPayload_wf.2 ⟨Section.written_wf hd.wf _, Section.written_wf hd.wf _, Section.written_wf hd.wf _,
      Section.written_wf hd.wf _⟩
  obtain ⟨h₁, h₂, h₃, h₄, hlow, -⟩ := hashPayload_dumps_inj hwf (ProofV1.payload_wf_of_parse py hd.wf hp) hdumps
  refine
    { parses := ⟨p, hp, hg.determinism⟩
      type := missing_eq_none.1 hacc.shaped.top "type" (by decide)
      algorithm := missing_eq_none.1 hacc.shaped.signatureFields "algorithm" (by decide)
      sequenceId := ⟨n, hfv⟩
      previousHash := ⟨t, hft, (hlow.trans hprev).symm⟩
      inFull := (inFull_iff hd.wf hp).2 fun s => ?_
      proofId := hacc.proofId }
  cases s with
  | decision => exact h₁
  | decisionContext => exact h₂
  | governance => exact h₃
  | determinism => exact h₄

/-- The texts that one of the programs hashes. -/
def comparedTexts (py : Pydantic) (ds : List Json) : Set String :=
  {t | ∃ d ∈ ds, t = dumps (buildHashPayload d)} ∪ hashedTexts py ds

theorem regular_of_collisionFree {ds : List Json} (hsha : CollisionFree (comparedTexts py ds)) (hmem : d ∈ ds)
    (hd : Document d) {now : String} {prev : Option String} {seq : Option ℤ} (hacc : Accepts ed d prev seq)
    (hv : (ProvableAi.verifyProof py ed now d prev seq).valid = true) : Regular py d :=
  regular_of_both hd hacc hv fun q hq heq => hsha (.inl ⟨d, hmem, rfl⟩) (.inr ⟨d, hmem, q, hq, rfl⟩) heq

/-! ### Chains -/

/-- One step of `verify_chain`. -/
theorem verifyChainFrom_cons {now : String} {total i : ℕ} {h : String} {fs : Option String} {k : String}
    {ds : List Json} (hp : ProofV1.parse py d = some p) :
    (ProvableAi.verifyChainFrom py ed now total i h fs k (d :: ds)).valid = true ↔
      (ProvableAi.verifyProof py ed now d (some h) (some (i + 1))).valid = true ∧
      (ProvableAi.verifyChainFrom py ed now total (i + 1) p.ledger.currentHash.text (some p.decision.toState)
        p.signature.keyId ds).valid = true := by
  rw [ProvableAi.verifyChainFrom]
  simp only [hp]
  split_ifs with hv
  · simp [hv]
  · simp [hv]

theorem parses_of_valid {now : String} {prev : Option String} {seq : Option ℤ}
    (h : (ProvableAi.verifyProof py ed now d prev seq).valid = true) : ∃ p, ProofV1.parse py d = some p := by
  obtain ⟨p, hp, -⟩ := (ProvableAi.verifyProof_valid_iff py ed).1 h
  exact ⟨p, hp⟩

theorem place_chain {i : ℕ} {h : String} (hlow : lower h = h) (hgen : i = 0 → h = genesisHash) :
    Place (some h) (some ((i : ℤ) + 1)) := .inr ⟨i, h, rfl, rfl, hlow, hgen⟩

/-- **The two programs agree on chains of regular documents.** -/
theorem chained_iff (hed : Sized ed) {now : String} {total : ℕ} {ds : List Json}
    (hds : ∀ d ∈ ds, Document d ∧ Regular py d) : ∀ {i : ℕ} {h : String} {fs : Option String} {k : String},
    lower h = h → (i = 0 → h = genesisHash) →
      (Chained ed i h ds ↔ (ProvableAi.verifyChainFrom py ed now total i h fs k ds).valid = true) := by
  induction ds with
  | nil => intro i h fs k _ _; exact iff_of_true trivial rfl
  | cons d ds ih =>
    intro i h fs k hlow hgen
    obtain ⟨⟨hd, hr⟩, hrest⟩ := List.forall_mem_cons.1 hds
    obtain ⟨p, hp, -⟩ := hr.parses
    rw [Chained, verifyChainFrom_cons hp, hr.accepts_iff hd hed now (place_chain hlow hgen),
      hashText_of_parse hp]
    exact and_congr_right fun _ => ih hrest p.ledger.currentHash.text_lower (by simp)

/-- The documents of a chain that both programs accept are regular. -/
theorem regular_of_chained {now : String} {total : ℕ} {all ds : List Json}
    (hsha : CollisionFree (comparedTexts py all)) (hall : ∀ d ∈ ds, d ∈ all) (hds : ∀ d ∈ ds, Document d) :
    ∀ {i : ℕ} {h : String} {fs : Option String} {k : String}, Chained ed i h ds →
      (ProvableAi.verifyChainFrom py ed now total i h fs k ds).valid = true → ∀ d ∈ ds, Regular py d := by
  induction ds with
  | nil => simp
  | cons d ds ih =>
    intro i h fs k hc hv
    obtain ⟨hd, hrest⟩ := List.forall_mem_cons.1 hds
    obtain ⟨hm, hms⟩ := List.forall_mem_cons.1 hall
    have hvd : (ProvableAi.verifyProof py ed now d (some h) (some (i + 1))).valid = true := by
      rw [ProvableAi.verifyChainFrom] at hv
      by_contra hno
      rw [if_neg hno] at hv
      cases hv
    obtain ⟨p, hp⟩ := parses_of_valid hvd
    obtain ⟨-, hv⟩ := (verifyChainFrom_cons hp).1 hv
    have htail := hc.2
    rw [hashText_of_parse hp] at htail
    exact List.forall_mem_cons.2 ⟨regular_of_collisionFree hsha hm hd hc.1 hvd, ih hms hrest htail hv⟩

/-! ### Where the verdicts are one -/

/-- The hashes, the signatures and the links of the list are right, for the documents as
they are written or for the proofs that they are parsed to. -/
def SignedChain (py : Pydantic) (ed : Ed25519) (ds : List Json) : Prop :=
  ds ≠ [] ∧ (Chained ed 0 genesisHash ds ∨
    ∃ ps, ds.mapM (ProofV1.parse py) = some ps ∧ (∀ p ∈ ps, Genuine ed p) ∧
      HashChain.Linked proofReading genesisHash 1 ps)

/-- The same of one document by itself. -/
def SignedProof (py : Pydantic) (ed : Ed25519) (d : Json) : Prop :=
  Accepts ed d none none ∨ ∃ p, ProofV1.parse py d = some p ∧ Genuine ed p ∧
    (p.ledger.sequenceId = 1 → p.ledger.previousHash.text = genesisHash)

/-- The verdicts on a list. -/
def ChainsAgree (py : Pydantic) (ed : Ed25519) (now : String) (ds : List Json) : Prop :=
  Valid (verifyChain ed now ds) ↔ (ProvableAi.verifyChain py ed now ds).valid = true

/-- The verdicts on a document. -/
def ProofsAgree (py : Pydantic) (ed : Ed25519) (now : String) (d : Json) : Prop :=
  Valid (verifyProof ed now d none none) ↔ (ProvableAi.verifyProof py ed now d none none).valid = true

theorem lower_zeros (n : ℕ) : lower (String.ofList (List.replicate n '0')) = String.ofList (List.replicate n '0') := by
  have hzero : Char.toLower '0' = '0' := by decide
  rw [lower, String.toList_ofList, List.map_replicate, hzero]

theorem lower_genesisHash : lower genesisHash = genesisHash := lower_zeros 64

theorem verifyChain_eq {now : String} {ds : List Json} (hne : ds ≠ []) :
    ProvableAi.verifyChain py ed now ds =
      ProvableAi.verifyChainFrom py ed now ds.length 0 genesisHash none "unknown" ds := by
  rw [ProvableAi.verifyChain, if_neg hne]

theorem signedChain_iff (now : String) {ds : List Json} :
    SignedChain py ed ds ↔ Valid (verifyChain ed now ds) ∨ (ProvableAi.verifyChain py ed now ds).valid = true := by
  rw [verifyChain_valid_iff, ProvableAi.verifyChain_valid_iff, ← and_or_left]
  rfl

theorem signedProof_iff (now : String) :
    SignedProof py ed d ↔
      Valid (verifyProof ed now d none none) ∨ (ProvableAi.verifyProof py ed now d none none).valid = true := by
  rw [verifyProof_valid_iff, ProvableAi.verifyProof_valid_iff, SignedProof]
  simp

theorem chainsAgree_of_regular (hed : Sized ed) {now : String} {ds : List Json} (hds : ∀ d ∈ ds, Document d)
    (h : SignedChain py ed ds → ∀ d ∈ ds, Regular py d) : ChainsAgree py ed now ds := by
  by_cases hs : SignedChain py ed ds
  · have hne := hs.1
    rw [ChainsAgree, verifyChain_valid_iff, verifyChain_eq hne,
      ← chained_iff hed (fun d hd => ⟨hds d hd, h hs d hd⟩) lower_genesisHash fun _ => rfl]
    exact and_iff_right hne
  · rw [signedChain_iff now, not_or] at hs
    exact iff_of_false hs.1 hs.2

theorem regular_of_chainsAgree {now : String} {ds : List Json} (hds : ∀ d ∈ ds, Document d)
    (hsha : CollisionFree (comparedTexts py ds)) (h : ChainsAgree py ed now ds) (hs : SignedChain py ed ds) :
    ∀ d ∈ ds, Regular py d := by
  obtain ⟨hweb, hpy⟩ : Valid (verifyChain ed now ds) ∧ (ProvableAi.verifyChain py ed now ds).valid = true := by
    rcases (signedChain_iff now).1 hs with hv | hv
    · exact ⟨hv, h.1 hv⟩
    · exact ⟨h.2 hv, hv⟩
  rw [verifyChain_eq hs.1] at hpy
  exact regular_of_chained hsha (fun _ hd => hd) hds (verifyChain_valid_iff.1 hweb).2 hpy

theorem proofsAgree_of_regular (hed : Sized ed) {now : String} (hd : Document d)
    (h : SignedProof py ed d → Regular py d) : ProofsAgree py ed now d := by
  by_cases hs : SignedProof py ed d
  · rw [ProofsAgree, verifyProof_valid_iff]
    exact (h hs).accepts_iff hd hed now (.inl ⟨rfl, rfl⟩)
  · rw [signedProof_iff now, not_or] at hs
    exact iff_of_false hs.1 hs.2

theorem regular_of_proofsAgree {now : String} (hd : Document d) (hsha : CollisionFree (comparedTexts py [d]))
    (h : ProofsAgree py ed now d) (hs : SignedProof py ed d) : Regular py d := by
  obtain ⟨hweb, hpy⟩ : Valid (verifyProof ed now d none none) ∧
      (ProvableAi.verifyProof py ed now d none none).valid = true := by
    rcases (signedProof_iff now).1 hs with hv | hv
    · exact ⟨hv, h.1 hv⟩
    · exact ⟨h.2 hv, hv⟩
  exact regular_of_collisionFree hsha (List.mem_singleton_self d) hd (verifyProof_valid_iff.1 hweb) hpy

end

/-! The loan, and the loan without its type. -/

theorem isBareControl_of_hex {c : Char} (h : isHexDigit c = true) : isBareControl c = false ∧ c ≠ '\\' := by
  rw [isHexDigit_iff] at h
  refine ⟨?_, ?_⟩
  · have hc : 32 ≤ c.toNat := by omega
    simp [isBareControl, Nat.not_lt.2 hc]
  · rintro rfl
    revert h
    decide

theorem plainChars_of_hex {cs : List Char} (h : cs.all isHexDigit = true) : plainChars cs = true := by
  induction cs with
  | nil => rfl
  | cons c cs ih =>
    rw [List.all_cons, Bool.and_eq_true] at h
    obtain ⟨hc, hs⟩ := isBareControl_of_hex h.1
    rw [plainChars, hc, ih h.2]
    simp [hs]

/-- The context of the loan is plain, whatever its inputs hash to. -/
theorem loanContext_plain (h : HexText 64) (hh : plainChars h.text.toList = true) :
    (DecisionContext.dump { loanContext with inputsHash := h }).plain = true := by
  refine (Json.plain_obj _).2 ?_
  simp only [List.forall_mem_cons]
  exact ⟨⟨rfl, rfl⟩, ⟨rfl, rfl⟩, ⟨rfl, rfl⟩, ⟨rfl, hh⟩, ⟨rfl, rfl⟩, ⟨rfl, rfl⟩, ⟨rfl, rfl⟩, by simp⟩

theorem plainChars_sha256Hex (t : String) : plainChars (sha256Hex t).toList = true := by
  refine plainChars_of_hex (List.all_eq_true.2 fun c hc => lowerHex_isHexDigit ?_)
  exact List.all_eq_true.1 (sha256Hex_lower t) c hc

/-- **The encoders agree on what is hashed of the loan.** -/
theorem loanPayload_encodersAgree : EncodersAgree loanPayload := by
  have hplain : loanPayload.plain = true := by
    refine (Json.plain_obj _).2 ?_
    simp only [List.forall_mem_cons]
    exact ⟨⟨rfl, rfl⟩, ⟨rfl, loanContext_plain _ (plainChars_sha256Hex _)⟩, ⟨rfl, rfl⟩, ⟨rfl, rfl⟩, ⟨rfl, rfl⟩,
      ⟨rfl, rfl⟩, by simp⟩
  obtain ⟨us, hus, hbytes⟩ := (textEncode_canonicalJson_iff (j := loanPayload) rfl rfl).2 ⟨hplain, rfl⟩
  have hfloat : loanPayload.floatFree = true := rfl
  rw [EncodersAgree, canonicalEncode_toPy, hus, if_pos hfloat]
  exact congrArg some hbytes

theorem loanEd25519_sized : Sized loanEd25519 := by
  intro pk m s h
  simp only [loanEd25519, Ed25519.ofTable, Bool.and_eq_true, decide_eq_true_eq, List.contains_eq_mem,
    List.mem_singleton, Prod.mk.injEq] at h
  obtain ⟨rfl, -, rfl⟩ := h
  exact ⟨rfl, rfl⟩

/-- A proof without its type. -/
def untyped (p : ProofV1) : Json :=
  .obj [("instance_id", .str p.instanceId), ("decision", p.decision.dump),
    ("decision_context", p.decisionContext.dump), ("governance", p.governance.dump),
    ("determinism", p.determinism.dump), ("ledger", p.ledger.dump), ("signature", p.signature.dump)]

theorem parse_untyped (py : Pydantic) (p : ProofV1) : ProofV1.parse py (untyped p) = some p := by
  have hd : (untyped p).modelField Decision.parse "decision" = some p.decision := p.decision.parse_dump
  have hc : (untyped p).modelField DecisionContext.parse "decision_context" = some p.decisionContext :=
    p.decisionContext.parse_dump
  have hg : (untyped p).modelField Governance.parse "governance" = some p.governance := p.governance.parse_dump
  have ht : (untyped p).modelField Determinism.parse "determinism" = some p.determinism := p.determinism.parse_dump
  have hl : (untyped p).modelField (Ledger.parse py) "ledger" = some p.ledger := p.ledger.parse_dump py
  have hs : (untyped p).modelField Signature.parse "signature" = some p.signature := p.signature.parse_dump
  rw [ProofV1.parse, hd, hc, hg, ht, hl, hs]
  exact ProofV1.make_eq_some.2 ⟨rfl, rfl, rfl, rfl, rfl, rfl, rfl⟩

section

variable (i t : String) (hi : i ≠ "") (hl : 20 ≤ t.length) (hz : endsWithZ t = true)

theorem loan_document : Document (loanProof i t hi hl hz).dump where
  wf := rfl
  encoders := loanPayload_encodersAgree
  sequenceId := by
    rintro n h
    obtain rfl : 1 = n := Json.int.inj h
    decide

theorem untypedLoan_document : Document (untyped (loanProof i t hi hl hz)) where
  wf := rfl
  encoders := loanPayload_encodersAgree
  sequenceId := by
    rintro n h
    obtain rfl : 1 = n := Json.int.inj h
    decide

theorem loan_regular (py : Pydantic) : Regular py (loanProof i t hi hl hz).dump where
  parses := ⟨_, ProofV1.parse_dump py _, rfl⟩
  type := rfl
  algorithm := rfl
  sequenceId := ⟨1, rfl⟩
  previousHash := ⟨genesisHash, rfl, lower_genesisHash⟩
  inFull := (inFull_iff rfl (ProofV1.parse_dump py _)).2 fun s => by cases s <;> rfl
  proofId := fun h => absurd h Bool.false_ne_true

end

end Web

end ProvableAi
