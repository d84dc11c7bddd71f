/-
# The proof verifier

`verifier.py`: `verify_proof` checks one proof document (schema, hash,
signature, link to the proof before it, sequence number, determinism fields),
`verify_chain` a list of them, oldest first.  Both return a
`VerificationResult` and never raise; the reason of a failure is the dict the
source builds.

The Ed25519 of PyNaCl is the parameter `ed`: `ed pk m s` says that
`VerifyKey(pk).verify(m, s)` returns.

`verifyChain_valid_iff` reads the loop as one statement: a list is accepted
exactly if it is not empty, every document parses to a proof that is good by
itself (`Genuine`), and the proofs form a hash chain from the genesis hash.
-/

import ProvableAi.Schema
import ProvableAi.Lib.HashChain

namespace ProvableAi

/-- `VerifyKey(public_key).verify(message, signature)` returns. -/
abbrev Ed25519 := Bytes → Bytes → Bytes → Bool

/-- `VerificationResult`. -/
structure VerificationResult where
  valid : Bool
  finalState : Option String
  verifiedAt : String
  keyId : String
  sequenceVerified : ℤ
  chainIntact : Bool
  governanceCompliant : Bool
  failureReason : Option Json
  deriving DecidableEq

/-- `_verify_ed25519`: `False` where a text is no hexadecimal or PyNaCl raises. -/
def verifyEd25519 (ed : Ed25519) (publicKeyHex : String) (hashBytes : Bytes) (signatureHex : String) :
    Bool :=
  match fromHex publicKeyHex, fromHex signatureHex with
  | some pub, some sig => ed pub hashBytes sig
  | _, _ => false

theorem verifyEd25519_toHex (ed : Ed25519) (pk m sig : Bytes) :
    verifyEd25519 ed (toHex pk) m (toHex sig) = ed pk m sig := by
  rw [verifyEd25519, fromHex_toHex, fromHex_toHex]

/-- `_validate_determinism_consistency`: the message where the fields are
inconsistent. -/
def validateDeterminismConsistency (t : Determinism) : Option String :=
  match t.mode with
  | .strictDeterministic =>
    match t.seed, t.externalCallsHash with
    | some seed, _ => some ("mode=strict_deterministic but seed is set to '" ++ seed ++ "'. " ++
        "Strict deterministic mode must have seed=null.")
    | none, some _ => some ("mode=strict_deterministic but external_calls_hash is set. " ++
        "Strict deterministic mode must have external_calls_hash=null.")
    | none, none => none
  | .replayWithSeed =>
    match t.seed with
    | none => some ("mode=replay_with_seed but seed is null. " ++
        "This mode requires a seed to be captured.")
    | some _ => none
  | .replayWithRecordedIo =>
    match t.externalCallsHash with
    | none => some ("mode=replay_with_recorded_io but external_calls_hash is null. " ++
        "This mode requires external calls to be recorded.")
    | some h =>
      if isValidHash h then none
      else some ("external_calls_hash '" ++ slice 16 h ++ "...' is not a valid 64-char hex.")

variable (py : Pydantic) (ed : Ed25519)

/-- A failure after the schema check. -/
def ProofV1.failure (p : ProofV1) (now : String) (chainIntact governanceCompliant : Bool) (type : String)
    (message : String) (more : List (String × Json)) : VerificationResult where
  valid := false
  finalState := some p.decision.toState
  verifiedAt := now
  keyId := p.signature.keyId
  sequenceVerified := p.ledger.sequenceId
  chainIntact := chainIntact
  governanceCompliant := governanceCompliant
  failureReason := some (.obj ([("type", .str type), ("message", .str message),
    ("sequence_id", .int p.ledger.sequenceId)] ++ more))

/-- Steps 4 to 6 of `verify_proof`: link, sequence number, determinism. -/
def verifyPosition (now : String) (p : ProofV1) (expectedPreviousHash : Option String)
    (expectedSequenceId : Option ℤ) : VerificationResult :=
  let previousHash := p.ledger.previousHash.text
  let sequenceId := p.ledger.sequenceId
  if expectedPreviousHash.any (· ≠ previousHash) then
    p.failure now false true "ChainBroken"
      ("Hash chain broken at sequence_id=" ++ toString sequenceId ++ ". " ++
        "previous_hash does not match prior proof's current_hash.")
      [("expected_previous", .ofOptStr expectedPreviousHash), ("stored_previous", .str previousHash)]
  else if sequenceId = 1 ∧ previousHash ≠ genesisHash then
    p.failure now false true "ChainBroken"
      ("First proof (sequence_id=1) must have previous_hash='" ++ slice 16 genesisHash ++
        "...'. Got '" ++ slice 16 previousHash ++ "...'") []
  else if expectedSequenceId.any (· ≠ sequenceId) then
    p.failure now false true "SequenceGap"
      ("Expected sequence_id=" ++ toString (expectedSequenceId.getD 0) ++ ", got " ++
        toString sequenceId ++ ".")
      [("expected", .int (expectedSequenceId.getD 0)), ("actual", .int sequenceId)]
  else
    match validateDeterminismConsistency p.determinism with
    | some message => p.failure now true true "DeterminismInconsistency" message []
    | none =>
      { valid := true, finalState := some p.decision.toState, verifiedAt := now
        keyId := p.signature.keyId, sequenceVerified := sequenceId, chainIntact := true
        governanceCompliant := true, failureReason := none }

/-- `verify_proof`. -/
def verifyProof (now : String) (proofDict : Json) (expectedPreviousHash : Option String)
    (expectedSequenceId : Option ℤ) : VerificationResult :=
  match ProofV1.parse py proofDict with
  | none =>
    { valid := false, finalState := none, verifiedAt := now, keyId := "unknown", sequenceVerified := 0
      chainIntact := false, governanceCompliant := false
      failureReason := some (.obj [("type", .str "SchemaValidationError"),
        ("message", .str ("Proof schema invalid: " ++ py.errorText proofDict)),
        ("sequence_id", .int 0)]) }
  | some p =>
    match p.toHashPayload.bind fun payload => canonicalHash payload.toPy with
    | .error e =>
      -- the catch-all at the end of the function
      p.failure now false false "UnexpectedError" ("Unexpected verification error: " ++ e.str) []
    | .ok recomputedHash =>
      if recomputedHash ≠ p.ledger.currentHash.text then
        p.failure now false true "HashMismatch"
          ("Recomputed hash '" ++ slice 16 recomputedHash ++ "...' does not match stored hash '" ++
            slice 16 p.ledger.currentHash.text ++ "...'. Proof payload was modified after signing.")
          [("expected", .str recomputedHash), ("stored", .str p.ledger.currentHash.text)]
      else
        match p.toSignBytes with
        | none => p.failure now false false "UnexpectedError"
            "Unexpected verification error: non-hexadecimal number found in fromhex() arg" []
        | some hashBytes =>
          if verifyEd25519 ed p.signature.publicKey.text hashBytes p.signature.value.text then
            verifyPosition now p expectedPreviousHash expectedSequenceId
          else
            p.failure now false true "SignatureMismatch"
              ("Ed25519 signature verification failed for key '" ++ p.signature.keyId ++ "'. " ++
                "Signature does not match hash using embedded public key.")
              [("key_id", .str p.signature.keyId)]

/-- The loop of `verify_chain` from index `i` on; `total` is the number of proofs. -/
def verifyChainFrom (now : String) (total : ℕ) :
    ℕ → String → Option String → String → List Json → VerificationResult
  | _, _, finalState, finalKeyId, [] =>
    { valid := true, finalState := finalState, verifiedAt := now, keyId := finalKeyId
      sequenceVerified := total, chainIntact := true, governanceCompliant := true, failureReason := none }
  | i, lastHash, finalState, finalKeyId, proofDict :: rest =>
    let result := verifyProof py ed now proofDict (some lastHash) (some (i + 1))
    if result.valid then
      match ProofV1.parse py proofDict with
      | some p =>
        verifyChainFrom now total (i + 1) p.ledger.currentHash.text (some p.decision.toState)
          p.signature.keyId rest
      | none => verifyChainFrom now total (i + 1) lastHash finalState finalKeyId rest
    else
      { valid := false, finalState := finalState, verifiedAt := now, keyId := result.keyId
        sequenceVerified := result.sequenceVerified, chainIntact := false
        governanceCompliant := result.governanceCompliant, failureReason := result.failureReason }

/-- `verify_chain`. -/
def verifyChain (now : String) (proofDicts : List Json) : VerificationResult :=
  if proofDicts = [] then
    { valid := false, finalState := none, verifiedAt := now, keyId := "unknown", sequenceVerified := 0
      chainIntact := false, governanceCompliant := false
      failureReason := some (.obj [("type", .str "EmptyChain"),
        ("message", .str "No proofs provided for chain verification."), ("sequence_id", .int 0)]) }
  else verifyChainFrom py ed now proofDicts.length 0 genesisHash none "unknown" proofDicts

/-! ### What is accepted -/

/-- A proof that is good by itself: its hash recomputes, its signature verifies
over the hash, and its determinism fields are consistent. -/
structure Genuine (ed : Ed25519) (p : ProofV1) : Prop where
  floatFree : p.payload.floatFree = true
  hash_eq : p.ledger.currentHash.text = sha256Hex (dumps p.payload)
  signature : verifyEd25519 ed p.signature.publicKey.text (sha256 (utf8 (dumps p.payload)))
    p.signature.value.text = true
  determinism : validateDeterminismConsistency p.determinism = none

theorem verifyPosition_valid_iff {now : String} {p : ProofV1} {prev : Option String} {seq : Option ℤ} :
    (verifyPosition now p prev seq).valid = true ↔
      (∀ h ∈ prev, p.ledger.previousHash.text = h) ∧
      (p.ledger.sequenceId = 1 → p.ledger.previousHash.text = genesisHash) ∧
      (∀ n ∈ seq, p.ledger.sequenceId = n) ∧ validateDeterminismConsistency p.determinism = none := by
  have hany : ∀ {α : Type} [DecidableEq α] (o : Option α) (x : α),
      (o.any (· ≠ x)) = true ↔ ¬ ∀ h ∈ o, x = h := by
    intro α _ o x
    cases o with
    | none => simp
    | some y => simpa using ne_comm
  have hfail : ∀ c g t m more, ¬ (p.failure now c g t m more).valid = true := fun _ _ _ _ _ h => by cases h
  rw [verifyPosition]
  simp only [hany]
  by_cases h₁ : ∀ h ∈ prev, p.ledger.previousHash.text = h
  · by_cases h₂ : p.ledger.sequenceId = 1 → p.ledger.previousHash.text = genesisHash
    · by_cases h₃ : ∀ n ∈ seq, p.ledger.sequenceId = n
      · rw [if_neg (not_not.2 h₁), if_neg (by tauto), if_neg (not_not.2 h₃)]
        cases h₄ : validateDeterminismConsistency p.determinism with
        | none => exact ⟨fun _ => ⟨h₁, h₂, h₃, rfl⟩, fun _ => rfl⟩
        | some m => exact ⟨fun h => absurd h (hfail _ _ _ _ _), fun h => absurd h.2.2.2 (by simp)⟩
      · rw [if_neg (not_not.2 h₁), if_neg (by tauto), if_pos h₃]
        exact ⟨fun h => absurd h (hfail _ _ _ _ _), fun h => absurd h.2.2.1 h₃⟩
    · rw [if_neg (not_not.2 h₁), if_pos (by tauto)]
      exact ⟨fun h => absurd h (hfail _ _ _ _ _), fun h => absurd h.2.1 h₂⟩
  · rw [if_pos h₁]
    exact ⟨fun h => absurd h (hfail _ _ _ _ _), fun h => absurd h.1 h₁⟩

/-- **What `verify_proof` accepts.** -/
theorem verifyProof_valid_iff {now : String} {d : Json} {prev : Option String} {seq : Option ℤ} :
    (verifyProof py ed now d prev seq).valid = true ↔
      ∃ p, ProofV1.parse py d = some p ∧ Genuine ed p ∧
        (∀ h ∈ prev, p.ledger.previousHash.text = h) ∧
        (p.ledger.sequenceId = 1 → p.ledger.previousHash.text = genesisHash) ∧
        (∀ n ∈ seq, p.ledger.sequenceId = n) := by
  rw [verifyProof]
  cases hp : ProofV1.parse py d with
  | none => simp
  | some p =>
    have hpay : ∀ x, (p.toHashPayload.bind fun payload => canonicalHash payload.toPy) = .ok x ↔
        p.payload.floatFree = true ∧ x = sha256Hex (dumps p.payload) := fun x => buildHashPayload_hash
    have hiff : (∃ q, some p = some q ∧ Genuine ed q ∧ (∀ h ∈ prev, q.ledger.previousHash.text = h) ∧
        (q.ledger.sequenceId = 1 → q.ledger.previousHash.text = genesisHash) ∧
        (∀ n ∈ seq, q.ledger.sequenceId = n)) ↔ Genuine ed p ∧
          (∀ h ∈ prev, p.ledger.previousHash.text = h) ∧
          (p.ledger.sequenceId = 1 → p.ledger.previousHash.text = genesisHash) ∧
          (∀ n ∈ seq, p.ledger.sequenceId = n) := by simp
    rw [hiff]
    clear hiff
    simp only
    cases hr : p.toHashPayload.bind fun payload => canonicalHash payload.toPy with
    | error e =>
      -- no hash: some value is a float
      have hf : ¬ Genuine ed p := fun hg => by
        rw [(hpay _).2 ⟨hg.floatFree, rfl⟩] at hr
        cases hr
      simp [ProofV1.failure, hf]
    | ok x =>
      obtain ⟨hff, rfl⟩ := (hpay x).1 hr
      simp only
      by_cases hx : sha256Hex (dumps p.payload) = p.ledger.currentHash.text
      · have hb : p.toSignBytes = some (sha256 (utf8 (dumps p.payload))) := by
          rw [ProofV1.toSignBytes, ← hx, fromHex_sha256Hex]
        rw [if_neg (not_not.2 hx), hb]
        by_cases hv : verifyEd25519 ed p.signature.publicKey.text (sha256 (utf8 (dumps p.payload)))
            p.signature.value.text = true
        · have hg : Genuine ed p ↔ validateDeterminismConsistency p.determinism = none :=
            ⟨fun h => h.determinism, fun h => ⟨hff, hx.symm, hv, h⟩⟩
          simp only [if_pos hv]
          rw [verifyPosition_valid_iff, hg]
          tauto
        · have hg : ¬ Genuine ed p := fun h => hv h.signature
          simp [if_neg hv, ProofV1.failure, hg]
      · have hg : ¬ Genuine ed p := fun h => hx h.hash_eq.symm
        rw [if_pos hx]
        simp [ProofV1.failure, hg]

/-- What the chain reads of a proof. -/
def proofReading : HashChain.Reading ProofV1 String where
  seq p := p.ledger.sequenceId
  prev p := p.ledger.previousHash.text
  cur p := p.ledger.currentHash.text

open HashChain

theorem verifyChainFrom_valid_iff {now : String} {total : ℕ} {ds : List Json} :
    ∀ {i : ℕ} {h : String} {fs : Option String} {k : String}, (i = 0 → h = genesisHash) →
      ((verifyChainFrom py ed now total i h fs k ds).valid = true ↔
        ∃ ps, ds.mapM (ProofV1.parse py) = some ps ∧ (∀ p ∈ ps, Genuine ed p) ∧
          Linked proofReading h (i + 1) ps) := by
  induction ds with
  | nil => intro i h fs k _; simp [verifyChainFrom]
  | cons d ds ih =>
    intro i h fs k hi
    rw [verifyChainFrom, List.mapM_cons]
    have hone : (verifyProof py ed now d (some h) (some ((i : ℤ) + 1))).valid = true ↔ _ :=
      verifyProof_valid_iff py ed
    by_cases hv : (verifyProof py ed now d (some h) (some ((i : ℤ) + 1))).valid = true
    · obtain ⟨p, hp, hg, hprev, -, hseq⟩ := hone.1 hv
      have hprev : p.ledger.previousHash.text = h := hprev h rfl
      have hseq : p.ledger.sequenceId = i + 1 := hseq _ rfl
      rw [if_pos hv, hp]
      simp only
      rw [ih (by simp)]
      simp only [Option.bind_eq_bind, Option.bind_some, Option.bind_eq_some_iff, Option.pure_def,
        Option.some.injEq]
      constructor
      · rintro ⟨ps, hps, hgs, hl⟩
        push_cast at hl
        exact ⟨p :: ps, ⟨ps, hps, rfl⟩, List.forall_mem_cons.2 ⟨hg, hgs⟩, hprev, hseq, hl⟩
      · rintro ⟨_, ⟨ps, hps, rfl⟩, hgs, -, -, hl⟩
        push_cast
        exact ⟨ps, hps, (List.forall_mem_cons.1 hgs).2, hl⟩
    · rw [if_neg hv]
      simp only [Option.bind_eq_bind, Option.bind_eq_some_iff, Option.pure_def, Option.some.injEq]
      constructor
      · intro h; cases h
      · rintro ⟨_, ⟨p, hp, ps, -, rfl⟩, hgs, hprev, hseq, -⟩
        refine absurd (hone.2 ⟨p, hp, (List.forall_mem_cons.1 hgs).1, ?_, fun h1 => ?_, ?_⟩) hv
        · rintro _ ⟨⟩; exact hprev
        · have hs : p.ledger.sequenceId = i + 1 := hseq
          exact hprev.trans (hi (by omega))
        · rintro _ ⟨⟩; exact hseq

/-- **What `verify_chain` accepts**: a non-empty list of documents that parse to
genuine proofs forming a hash chain from the genesis hash. -/
theorem verifyChain_valid_iff {now : String} {ds : List Json} :
    (verifyChain py ed now ds).valid = true ↔
      ds ≠ [] ∧ ∃ ps, ds.mapM (ProofV1.parse py) = some ps ∧ (∀ p ∈ ps, Genuine ed p) ∧
        Linked proofReading genesisHash 1 ps := by
  rw [verifyChain]
  by_cases hd : ds = []
  · simp [hd]
  · rw [if_neg hd, verifyChainFrom_valid_iff py ed (fun _ => rfl)]
    simp [hd]

/-! ### The last hash commits to the chain -/

/-- The `ledger.current_hash` of the last document, as parsed. -/
def lastCurrentHash (ds : List Json) : Option String :=
  (ds.getLast?.bind (ProofV1.parse py)).map fun p => p.ledger.currentHash.text

/-- The texts `verify_chain` hashes: the payloads of the parsed documents. -/
def hashedTexts (ds : List Json) : Set String :=
  {t | ∃ d ∈ ds, ∃ p, ProofV1.parse py d = some p ∧ t = dumps p.payload}

/-- The documents parse to proofs that agree on what is hashed: decision,
decision context (dicts compared as dicts), governance, determinism,
`previous_hash` and `sequence_id`. -/
def SameHashed (d e : Json) : Prop :=
  ∃ p q, ProofV1.parse py d = some p ∧ ProofV1.parse py e = some q ∧
    p.decision = q.decision ∧ p.decisionContext.canon = q.decisionContext.canon ∧
    p.governance = q.governance ∧ p.determinism = q.determinism ∧
    p.ledger.previousHash = q.ledger.previousHash ∧ p.ledger.sequenceId = q.ledger.sequenceId

theorem forall₂_of_mapM {α β : Type*} {f : α → Option β} {xs : List α} {ys : List β}
    (h : xs.mapM f = some ys) : List.Forall₂ (fun x y => f x = some y) xs ys := by
  induction xs generalizing ys with
  | nil => obtain rfl := Option.some.inj h; exact .nil
  | cons x xs ih =>
    rw [List.mapM_cons] at h
    obtain ⟨y, hy, h⟩ := Option.bind_eq_some_iff.1 h
    obtain ⟨ys, hys, h⟩ := Option.bind_eq_some_iff.1 h
    obtain rfl := Option.some.inj h
    exact .cons hy (ih hys)

theorem lastCurrentHash_eq_tip {ds : List Json} {ps : List ProofV1}
    (h : ds.mapM (ProofV1.parse py) = some ps) (hne : ds ≠ []) :
    lastCurrentHash py ds = some (tip proofReading genesisHash ps) := by
  obtain rfl | ⟨ds, d, rfl⟩ := List.eq_nil_or_concat ds
  · exact absurd rfl hne
  rw [List.concat_eq_append] at h ⊢
  rw [List.mapM_append] at h
  obtain ⟨qs, -, h⟩ := Option.bind_eq_some_iff.1 h
  obtain ⟨rs, hrs, h⟩ := Option.bind_eq_some_iff.1 h
  rw [List.mapM_cons, List.mapM_nil] at hrs
  obtain ⟨p, hp, hrs⟩ := Option.bind_eq_some_iff.1 hrs
  obtain rfl := Option.some.inj hrs
  obtain rfl := Option.some.inj h
  rw [tip_concat, lastCurrentHash, List.getLast?_concat, Option.bind_some, hp]
  rfl

/-- A verifier that knows some signatures of one key. -/
def Ed25519.ofTable (publicKey : Bytes) (table : List (Bytes × Bytes)) : Ed25519 := fun pk m s =>
  decide (pk = publicKey) && table.contains (m, s)

theorem Ed25519.ofTable_of_mem {pk m s : Bytes} {table : List (Bytes × Bytes)} (h : (m, s) ∈ table) :
    Ed25519.ofTable pk table pk m s = true := by
  simp [Ed25519.ofTable, h]

/-- Lax mode on booleans and integers. -/
def plainPydantic : Pydantic where
  laxInt
    | .int n => some n
    | .bool true => some 1
    | .bool false => some 0
    | _ => none
  laxInt_int _ := rfl
  laxInt_arr _ := rfl
  laxInt_obj _ := rfl
  errorText _ := "validation error"

/-- The public key of the first test vector of RFC 8032. -/
def rfcPublicKey : Bytes :=
  [0xd7, 0x5a, 0x98, 0x01, 0x82, 0xb1, 0x0a, 0xb7, 0xd5, 0x4b, 0xfe, 0xd3, 0xc9, 0x64, 0x07, 0x3a,
   0x0e, 0xe1, 0x72, 0xf3, 0xda, 0xa6, 0x23, 0x25, 0xaf, 0x02, 0x1a, 0x68, 0xf7, 0x07, 0x51, 0x1a]

/-- Its signature over the hash of `loanPayload`. -/
def loanSignature : Bytes :=
  [0xb9, 0xdc, 0x7a, 0x35, 0x02, 0x5b, 0x1d, 0x6b, 0x42, 0xd1, 0xf7, 0xb3, 0x5a, 0x1b, 0x31, 0xd0,
   0x6c, 0x02, 0x08, 0x23, 0xc6, 0x98, 0xb4, 0x10, 0x75, 0xb9, 0x7b, 0xfe, 0xb4, 0x24, 0x57, 0xd7,
   0xe4, 0x65, 0xbe, 0xb6, 0x95, 0x32, 0x4e, 0xa6, 0x8b, 0x15, 0xc4, 0x5d, 0x36, 0x82, 0x61, 0xbc,
   0x32, 0x0b, 0x9f, 0x8c, 0x92, 0x85, 0x84, 0xbe, 0xe9, 0xda, 0x34, 0x46, 0x98, 0xa6, 0x05, 0x08]

/-- The approval of a loan. -/
def loanDecision : Decision := ⟨"pending", "approved", by decide, by decide⟩

/-- Its context. -/
def loanContext : DecisionContext :=
  ⟨"SCORE_ABOVE_THRESHOLD", "credit_policy_v2.rule_7", "v1.0.0",
    .sha256 (dumps (.obj [("credit_score", .int 742)])), [], some "700", [], by decide, by decide, by decide⟩

/-- The versions it was made with. -/
def loanGovernance : Governance := ⟨"v1.0.0", "a1", "p1", by decide, by decide, by decide⟩

theorem unseeded_fields : modeFields .strictDeterministic none none = true := rfl

/-- What is hashed of a first decision on a loan. -/
def loanPayload : Json :=
  hashPayload loanDecision.dump loanContext.dump loanGovernance.dump
    (Determinism.dump ⟨.strictDeterministic, none, none, unseeded_fields⟩) genesisHash 1

/-- Its proof, for any instance and time. -/
def loanProof (instanceId timestamp : String) (hi : instanceId ≠ "") (hl : 20 ≤ timestamp.length)
    (hz : endsWithZ timestamp = true) : ProofV1 where
  instanceId := instanceId
  decision := loanDecision
  decisionContext := loanContext
  governance := loanGovernance
  determinism := ⟨.strictDeterministic, none, none, unseeded_fields⟩
  ledger := ⟨1, ⟨genesisHash, by decide, by decide, by decide⟩, .sha256 (dumps loanPayload), timestamp, by decide, hl, hz⟩
  signature := ⟨.ed25519, "env-d75a980182b10ab7", .ofBytes rfcPublicKey rfl (by decide),
    .ofBytes loanSignature rfl (by decide), by decide⟩
  instanceId_ne := hi
  modelVersion_eq := rfl

/-- The proof of one loan, and the same for another loan a month later. -/
def loanProofs : ProofV1 × ProofV1 :=
  (loanProof "loan_1" "2026-01-01T00:00:00Z" (by decide) (by decide) (by decide),
   loanProof "loan_2" "2026-02-01T00:00:00Z" (by decide) (by decide) (by decide))

theorem loanProofs_fst {P : ProofV1 → Prop} (h : ∀ i t hi hl hz, P (loanProof i t hi hl hz)) : P loanProofs.1 := h ..

theorem loanProofs_snd {P : ProofV1 → Prop} (h : ∀ i t hi hl hz, P (loanProof i t hi hl hz)) : P loanProofs.2 := h ..

/-- The one signature that is checked. -/
def loanEd25519 : Ed25519 := .ofTable rfcPublicKey [(sha256 (utf8 (dumps loanPayload)), loanSignature)]

section

variable (i t : String) (hi : i ≠ "") (hl : 20 ≤ t.length) (hz : endsWithZ t = true)

theorem loanProof_payload : (loanProof i t hi hl hz).payload = loanPayload := rfl

theorem loanProof_genuine : Genuine loanEd25519 (loanProof i t hi hl hz) where
  floatFree := rfl
  hash_eq := by rw [loanProof_payload]; rfl
  signature := by
    rw [loanProof_payload]
    have h : verifyEd25519 loanEd25519 (toHex rfcPublicKey) (sha256 (utf8 (dumps loanPayload)))
        (toHex loanSignature) = true := by
      rw [verifyEd25519_toHex]
      exact Ed25519.ofTable_of_mem (List.mem_singleton_self _)
    exact h
  determinism := rfl

end

/-- The two documents are hashed from one text. -/
theorem loanTexts_collisionFree :
    CollisionFree (hashedTexts plainPydantic ([loanProofs.1.dump] ++ [loanProofs.2.dump])) := by
  refine CollisionFree.mono (t := {dumps loanPayload}) (Set.injOn_singleton _ _) ?_
  rintro t ⟨d, hd, p, hp, rfl⟩
  have hp₁ : loanProofs.1.payload = loanPayload :=
    loanProofs_fst (P := fun p => p.payload = loanPayload) loanProof_payload
  have hp₂ : loanProofs.2.payload = loanPayload :=
    loanProofs_snd (P := fun p => p.payload = loanPayload) loanProof_payload
  rcases List.mem_append.1 hd with hd | hd <;> obtain rfl := List.mem_singleton.1 hd <;>
    rw [ProofV1.parse_dump] at hp <;> obtain rfl := Option.some.inj hp
  · rw [hp₁]; exact Set.mem_singleton _
  · rw [hp₂]; exact Set.mem_singleton _

end ProvableAi
