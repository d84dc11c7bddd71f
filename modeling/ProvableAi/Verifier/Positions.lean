/-
# A chain position by position

`verify_chain` as a statement about the positions of the list.  An element is good
where it stands (`GoodAt`) if it parses, carries the number of its position and the
`current_hash` of the element before it, and is good by itself: its hash recomputes,
its signature verifies over the bytes of the hash, and its determinism fields suit
its mode.

`verifyChain_positions`: a list is accepted exactly if it is not empty and every
element is good where it stands.  A list that is refused is refused for the first
element that is not: `sequence_verified` and `failure_reason` are what
`verify_proof` says of that element, asked for the number of its position and for
the hash of the element before it.  Both handlers of the source are branches of the
model (`UnexpectedError` in `verifyProof`, the link that is kept in
`verifyChainFrom`); the second one is never reached, since an element that passed
`verify_proof` parses.
-/

import ProvableAi.Verifier

namespace ProvableAi

variable (py : Pydantic) (ed : Ed25519)

/-! ### One element -/

/-- The determinism fields suit the mode: none in strict mode, a seed to replay with,
the hash of the recorded calls. -/
def Determinism.Consistent (t : Determinism) : Prop :=
  match t.mode with
  | .strictDeterministic => t.seed = none ∧ t.externalCallsHash = none
  | .replayWithSeed => t.seed ≠ none
  | .replayWithRecordedIo => ∃ h, t.externalCallsHash = some h ∧ isValidHash h = true

theorem validateDeterminismConsistency_eq_none {t : Determinism} :
    validateDeterminismConsistency t = none ↔ t.Consistent := by
  rw [validateDeterminismConsistency, Determinism.Consistent]
  cases t.mode with
  | strictDeterministic => cases t.seed <;> cases t.externalCallsHash <;> simp
  | replayWithSeed => cases t.seed <;> simp
  | replayWithRecordedIo =>
    cases t.externalCallsHash with
    | none => simp
    | some h =>
      simp only [Option.some.injEq, exists_eq_left']
      split <;> simp [*]

/-- The hash recomputes, the signature verifies over its bytes under the key in the
proof, and the determinism fields are consistent. -/
structure ProofV1.Sound (p : ProofV1) : Prop where
  hash : (p.toHashPayload.bind fun payload => canonicalHash payload.toPy) = .ok p.ledger.currentHash.text
  signature : ∃ hashBytes, p.toSignBytes = some hashBytes ∧
    verifyEd25519 ed p.signature.publicKey.text hashBytes p.signature.value.text = true
  determinism : p.determinism.Consistent

theorem genuine_iff_sound {p : ProofV1} : Genuine ed p ↔ p.Sound ed := by
  have hpay : (p.toHashPayload.bind fun payload => canonicalHash payload.toPy) = .ok p.ledger.currentHash.text ↔
      p.payload.floatFree = true ∧ p.ledger.currentHash.text = sha256Hex (dumps p.payload) := buildHashPayload_hash
  have hbytes : p.ledger.currentHash.text = sha256Hex (dumps p.payload) →
      p.toSignBytes = some (sha256 (utf8 (dumps p.payload))) := fun h => by
    rw [ProofV1.toSignBytes, h, fromHex_sha256Hex]
  constructor
  · intro h
    refine ⟨hpay.2 ⟨h.floatFree, h.hash_eq⟩, ⟨_, hbytes h.hash_eq, h.signature⟩, ?_⟩
    exact validateDeterminismConsistency_eq_none.1 h.determinism
  · intro h
    obtain ⟨hff, heq⟩ := hpay.1 h.hash
    obtain ⟨b, hb, hsig⟩ := h.signature
    obtain rfl := Option.some.inj ((hbytes heq).symm.trans hb)
    exact ⟨hff, heq, hsig, validateDeterminismConsistency_eq_none.2 h.determinism⟩

/-- The document is good behind the hash `prev` as number `n`. -/
def GoodDoc (d : Json) (prev : String) (n : ℤ) : Prop :=
  ∃ p, ProofV1.parse py d = some p ∧ p.ledger.sequenceId = n ∧ p.ledger.previousHash.text = prev ∧ p.Sound ed

/-- **`verify_proof` inside a chain**: the test for the genesis hash adds nothing where
the first element is asked for it. -/
theorem verifyProof_chain_iff {now : String} {d : Json} {prev : String} {n : ℤ} (h : n = 1 → prev = genesisHash) :
    (verifyProof py ed now d (some prev) (some n)).valid = true ↔ GoodDoc py ed d prev n := by
  rw [verifyProof_valid_iff]
  refine exists_congr fun p => and_congr_right fun _ => ?_
  rw [genuine_iff_sound]
  constructor
  · rintro ⟨hs, hprev, -, hseq⟩
    exact ⟨hseq n rfl, hprev prev rfl, hs⟩
  · rintro ⟨rfl, rfl, hs⟩
    refine ⟨hs, ?_, h, ?_⟩
    · rintro _ ⟨⟩
      rfl
    · rintro _ ⟨⟩
      rfl

theorem verifyProof_sequenceVerified {now : String} {d : Json} {prev : Option String} {seq : Option ℤ} :
    (verifyProof py ed now d prev seq).sequenceVerified =
      ((ProofV1.parse py d).map fun p => p.ledger.sequenceId).getD 0 := by
  rw [verifyProof]
  cases ProofV1.parse py d with
  | none => rfl
  | some p =>
    simp only
    split
    · rfl
    · split
      · rfl
      · split
        · rfl
        · split
          · rw [verifyPosition]
            split_ifs
            · rfl
            · rfl
            · rfl
            · split <;> rfl
          · rfl

/-! ### The positions of a list -/

/-- The hash that the element at position `i` has to name, from position 0 on. -/
def linkBefore (ds : List Json) : ℕ → Option String
  | 0 => some genesisHash
  | i + 1 => (ds[i]?.bind (ProofV1.parse py)).map fun p => p.ledger.currentHash.text

/-- The element at position `i` is good where it stands. -/
def GoodAt (ds : List Json) (i : ℕ) : Prop :=
  ∃ d prev, ds[i]? = some d ∧ linkBefore py ds i = some prev ∧ GoodDoc py ed d prev (i + 1)

/-- The first element that is not good is the one at position `i`, and the result says
of it what `verify_proof` does. -/
structure FailsAt (now : String) (ds : List Json) (result : VerificationResult) (i : ℕ) : Prop where
  before : ∀ j < i, GoodAt py ed ds j
  bad : ¬ GoodAt py ed ds i
  told : ∃ d prev, ds[i]? = some d ∧ linkBefore py ds i = some prev ∧
    (verifyProof py ed now d (some prev) (some (i + 1))).valid = false ∧
    result.sequenceVerified = ((ProofV1.parse py d).map fun p => p.ledger.sequenceId).getD 0 ∧
    result.failureReason = (verifyProof py ed now d (some prev) (some (i + 1))).failureReason

variable {py ed}

/-- The loop from a position on, all elements before it good. -/
theorem verifyChainFrom_positions {now : String} {total : ℕ} {ds : List Json} :
    ∀ {rest : List Json} {past : List Json} {prev : String} {fs : Option String} {k : String}, ds = past ++ rest →
      linkBefore py ds past.length = some prev → (∀ j < past.length, GoodAt py ed ds j) →
      ((verifyChainFrom py ed now total past.length prev fs k rest).valid = true ∧ ∀ j < ds.length, GoodAt py ed ds j) ∨
      ((verifyChainFrom py ed now total past.length prev fs k rest).valid = false ∧
        ∃ i < ds.length, FailsAt py ed now ds (verifyChainFrom py ed now total past.length prev fs k rest) i) := by
  intro rest
  induction rest with
  | nil =>
    rintro past prev fs k rfl - hgood
    refine .inl ⟨rfl, fun j hj => hgood j ?_⟩
    rwa [List.append_nil] at hj
  | cons d rest ih =>
    rintro past prev fs k hds hprev hgood
    have hget : ds[past.length]? = some d := by rw [hds]; simp
    have hfirst : (past.length : ℤ) + 1 = 1 → prev = genesisHash := by
      intro h
      have h0 : past.length = 0 := by omega
      rw [h0, linkBefore] at hprev
      exact (Option.some.inj hprev).symm
    have hone : (verifyProof py ed now d (some prev) (some ((past.length : ℤ) + 1))).valid = true ↔
        GoodDoc py ed d prev (past.length + 1) := verifyProof_chain_iff py ed hfirst
    have hat : GoodAt py ed ds past.length ↔ GoodDoc py ed d prev (past.length + 1) := by
      rw [GoodAt, hget, hprev]
      simp
    rw [verifyChainFrom]
    by_cases hv : (verifyProof py ed now d (some prev) (some ((past.length : ℤ) + 1))).valid = true
    · obtain ⟨p, hp, -⟩ := hone.1 hv
      have hnext : ds = (past ++ [d]) ++ rest := by rw [hds, List.append_assoc]; rfl
      have hlen : (past ++ [d]).length = past.length + 1 := by rw [List.length_append, List.length_singleton]
      rw [if_pos hv, hp]
      simp only
      rw [← hlen]
      refine ih hnext ?_ fun j hj => ?_
      · rw [hlen, linkBefore, hget, Option.bind_some, hp]
        rfl
      · rcases Nat.lt_succ_iff_lt_or_eq.1 (hlen ▸ hj) with hj | rfl
        · exact hgood j hj
        · exact hat.2 (hone.1 hv)
    · rw [if_neg hv]
      refine .inr ⟨rfl, past.length, by rw [hds]; simp, hgood, fun h => hv (hone.2 (hat.1 h)), d, prev, hget, hprev, ?_⟩
      exact ⟨Bool.eq_false_iff.2 hv, verifyProof_sequenceVerified py ed, rfl⟩

variable (py ed)

/-- What the loop says of a list that is not empty. -/
theorem verifyChain_cases {now : String} {ds : List Json} (hd : ds ≠ []) :
    ((verifyChain py ed now ds).valid = true ∧ ∀ i < ds.length, GoodAt py ed ds i) ∨
      ((verifyChain py ed now ds).valid = false ∧
        ∃ i < ds.length, FailsAt py ed now ds (verifyChain py ed now ds) i) := by
  rw [verifyChain, if_neg hd]
  exact @verifyChainFrom_positions py ed now ds.length ds ds [] genesisHash none "unknown" rfl rfl (by simp)

theorem verifyChain_good (now : String) {ds : List Json} :
    (verifyChain py ed now ds).valid = true ↔ ds ≠ [] ∧ ∀ i < ds.length, GoodAt py ed ds i := by
  by_cases hd : ds = []
  · simp [hd, verifyChain]
  · rcases verifyChain_cases py ed hd with ⟨hvalid, hgood⟩ | ⟨hvalid, i, hi, hfails⟩
    · exact iff_of_true hvalid ⟨hd, hgood⟩
    · exact iff_of_false (by rw [hvalid]; decide) fun h => hfails.bad (h.2 i hi)

end ProvableAi
