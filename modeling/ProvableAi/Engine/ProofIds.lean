/-
# Which decisions share a proof id

`proof_id = sha256(f"{current_hash}:{sequence_id}")`, and the current hash covers
neither the instance nor the time (`_EXCLUDED_HASH_FIELDS`).  So an id does not
name one row: two instances whose chains hold the same decisions share the ids of
all of them.  That is the only way (`proofId_eq_iff`): rows with one id hold one
content at one place of chains with the same contents before it, and the rows of
one instance have different ids.
-/

import ProvableAi.Engine.SystemRoot

namespace ProvableAi

open HashChain

/-- The id of a row's proof. -/
def LedgerRow.proofId (r : LedgerRow) : String := computeProofId r.currentHash r.sequenceId

/-- The contents recorded on the instance of the `n`-th decision, up to it. -/
def history (acc : List (DecisionArgs × ProofV1)) (n : ℕ) : List ProofV1.Content :=
  match acc[n]? with
  | some ap => (onInstance ap.1.instanceId (acc.take (n + 1))).map fun bq => bq.2.content
  | none => []

/-- The text that is hashed for an id. -/
def idText (p : ProofV1) : String := p.ledger.currentHash.text ++ ":" ++ toString p.ledger.sequenceId

/-- The texts that are hashed for decisions and for their ids. -/
def idTexts (acc : List (DecisionArgs × ProofV1)) : Set String :=
  decisionTexts acc ∪ {t | ∃ ap ∈ acc, t = idText ap.2}

/-- The content determines what is hashed. -/
theorem ProofV1.dumps_of_content {p q : ProofV1} (h : p.content = q.content) : dumps p.payload = dumps q.payload := by
  have hpay : p.canon.payload = q.canon.payload := by
    simp only [ProofV1.content, ProofV1.Content.mk.injEq] at h
    obtain ⟨hd, hc, hg, ht, hh, hn⟩ := h
    simp only [ProofV1.payload, ProofV1.canon, hd, hc, hg, ht, hh, hn]
  rw [← p.dumps_payload_canon, hpay, q.dumps_payload_canon]

section Ids

variable {signer : Signer} {db : Db} {acc : List (DecisionArgs × ProofV1)}

/-- The ledger up to a decision is that of a run up to it. -/
theorem Inv.take (h : Inv signer db acc) (n : ℕ) : Inv signer { db with ledger := db.ledger.take n } (acc.take n) where
  ledger := by rw [h.ledger, List.map_take]
  built := fun ap hap => h.built ap (List.mem_of_mem_take hap)
  chained := h.chained.of_prefix (List.take_prefix n db.ledger)

/-- The decisions on an instance up to one on it end with it. -/
theorem onInstance_take {n : ℕ} {ap : DecisionArgs × ProofV1} (h : acc[n]? = some ap) :
    onInstance ap.1.instanceId (acc.take (n + 1)) = onInstance ap.1.instanceId (acc.take n) ++ [ap] := by
  rw [List.take_add_one, h, onInstance, onInstance, List.filter_append]
  simp

/-- The number of a decision is its place on its instance. -/
theorem Inv.sequenceId_eq (h : Inv signer db acc) {n : ℕ} {ap : DecisionArgs × ProofV1} (hn : acc[n]? = some ap) :
    ap.2.ledger.sequenceId = (onInstance ap.1.instanceId (acc.take n)).length + 1 := by
  have hl := (h.take (n + 1)).linked ap.1.instanceId
  rw [onInstance_take hn, List.map_append, List.map_singleton] at hl
  have hs : ap.2.ledger.sequenceId = _ := hl.seq_last
  rw [hs]
  simp

/-- Two decisions on one instance have different numbers. -/
theorem Inv.sequenceId_lt (h : Inv signer db acc) {m n : ℕ} (hmn : m < n) {ap bq : DecisionArgs × ProofV1}
    (hm : acc[m]? = some ap) (hn : acc[n]? = some bq) (hi : ap.1.instanceId = bq.1.instanceId) :
    ap.2.ledger.sequenceId < bq.2.ledger.sequenceId := by
  have hle : (onInstance ap.1.instanceId (acc.take (m + 1))).length ≤
      (onInstance ap.1.instanceId (acc.take n)).length :=
    ((List.take_sublist_take_left (by omega : m + 1 ≤ n)).filter _).length_le
  rw [onInstance_take hm, List.length_append, List.length_singleton] at hle
  rw [h.sequenceId_eq hm, h.sequenceId_eq hn, ← hi]
  omega

/-- Ids of recorded proofs determine their contents. -/
theorem Inv.content_of_proofId (h : Inv signer db acc) (hsha : CollisionFree (idTexts acc))
    {ap bq : DecisionArgs × ProofV1} (hap : ap ∈ acc) (hbq : bq ∈ acc) (heq : ap.2.row.proofId = bq.2.row.proofId) :
    ap.2.content = bq.2.content := by
  have htext : idText ap.2 = idText bq.2 := hsha (.inr ⟨ap, hap, rfl⟩) (.inr ⟨bq, hbq, rfl⟩) heq
  have hlen : ∀ cq ∈ acc, cq.2.ledger.currentHash.text.toList.length = 64 := by
    intro cq hcq
    rw [(h.built cq hcq).hash_eq, String.length_toList, sha256Hex_length]
  have hlist := congrArg String.toList htext
  simp only [idText, String.toList_append, List.append_assoc] at hlist
  have hcur := (List.append_inj hlist ((hlen ap hap).trans (hlen bq hbq).symm)).1
  exact (h.built ap hap).content_eq (h.built bq hbq) hsha (.inl ⟨ap, hap, rfl⟩) (.inl ⟨bq, hbq, rfl⟩)
    (String.toList_injective hcur)

/-- Decisions of one content have one history. -/
theorem Inv.history_eq (h : Inv signer db acc) (hsha : CollisionFree (idTexts acc)) {m n : ℕ}
    {ap bq : DecisionArgs × ProofV1} (hm : acc[m]? = some ap) (hn : acc[n]? = some bq)
    (heq : ap.2.content = bq.2.content) : history acc m = history acc n := by
  have hhash : ap.2.ledger.currentHash.text = bq.2.ledger.currentHash.text := by
    rw [(h.built ap (List.mem_of_getElem? hm)).hash_eq, (h.built bq (List.mem_of_getElem? hn)).hash_eq,
      ProofV1.dumps_of_content heq]
  have htip : tip proofReading genesisHash ((onInstance ap.1.instanceId (acc.take (m + 1))).map Prod.snd) =
      tip proofReading genesisHash ((onInstance bq.1.instanceId (acc.take (n + 1))).map Prod.snd) := by
    rw [onInstance_take hm, onInstance_take hn, List.map_append, List.map_append, List.map_singleton,
      List.map_singleton, tip_concat, tip_concat]
    exact hhash
  have htexts : ∀ k, decisionTexts (acc.take k) ⊆ idTexts acc := by
    rintro k t ⟨cq, hcq, rfl⟩
    exact .inl ⟨cq, List.mem_of_mem_take hcq, rfl⟩
  simp only [history, hm, hn]
  exact (h.take (m + 1)).contents_of_tip (h.take (n + 1)) hsha (htexts _) (htexts _) (by simp [onInstance_take hm])
    (by simp [onInstance_take hn]) htip

/-- **Which rows share an id.**  Two rows of a ledger have one id exactly if they
are on different instances whose chains up to them hold the same contents. -/
theorem Inv.proofId_eq_iff (h : Inv signer db acc) (hsha : CollisionFree (idTexts acc)) {m n : ℕ} {r q : LedgerRow}
    (hm : db.ledger[m]? = some r) (hn : db.ledger[n]? = some q) (hmn : m ≠ n) :
    r.proofId = q.proofId ↔ r.instanceId ≠ q.instanceId ∧ history acc m = history acc n := by
  rw [h.ledger, List.getElem?_map, Option.map_eq_some_iff] at hm hn
  obtain ⟨ap, hm, rfl⟩ := hm
  obtain ⟨bq, hn, rfl⟩ := hn
  have hap := List.mem_of_getElem? hm
  have hbq := List.mem_of_getElem? hn
  constructor
  · intro heq
    have hc := h.content_of_proofId hsha hap hbq heq
    refine ⟨fun hi => ?_, h.history_eq hsha hm hn hc⟩
    have hi : ap.1.instanceId = bq.1.instanceId :=
      (h.built ap hap).instanceId.symm.trans ((show ap.2.instanceId = bq.2.instanceId from hi).trans
        (h.built bq hbq).instanceId)
    have hseq : ap.2.ledger.sequenceId = bq.2.ledger.sequenceId := congrArg ProofV1.Content.sequenceId hc
    rcases Nat.lt_or_gt_of_ne hmn with hlt | hlt
    · exact absurd hseq (h.sequenceId_lt hlt hm hn hi).ne
    · exact absurd hseq (h.sequenceId_lt hlt hn hm hi.symm).ne'
  · rintro ⟨-, hhist⟩
    simp only [history, hm, hn, onInstance_take, List.map_append, List.map_singleton] at hhist
    have hc : ap.2.content = bq.2.content := by
      have hlast := congrArg List.getLast? hhist
      simpa using hlast
    have hcur : ap.2.row.currentHash = bq.2.row.currentHash := by
      have hcur : ap.2.ledger.currentHash.text = bq.2.ledger.currentHash.text := by
        rw [(h.built ap hap).hash_eq, (h.built bq hbq).hash_eq, ProofV1.dumps_of_content hc]
      exact hcur
    have hseq : ap.2.row.sequenceId = bq.2.row.sequenceId := congrArg ProofV1.Content.sequenceId hc
    rw [LedgerRow.proofId, LedgerRow.proofId, hcur, hseq]

/-- **Ids over a run.**  In the ledger of every run, two rows have one id exactly if
they are on different instances whose chains up to them hold the same contents;
in particular the rows of one instance have different ids. -/
theorem proofId_shared_iff (ops : List Op)
    (hsha : CollisionFree (idTexts (recorded (Engine.fresh.run signer ops).2))) {m n : ℕ} {r q : LedgerRow}
    (hm : (Engine.fresh.run signer ops).1.db.ledger[m]? = some r)
    (hn : (Engine.fresh.run signer ops).1.db.ledger[n]? = some q) (hmn : m ≠ n) :
    r.proofId = q.proofId ↔ r.instanceId ≠ q.instanceId ∧
      history (recorded (Engine.fresh.run signer ops).2) m = history (recorded (Engine.fresh.run signer ops).2) n :=
  (inv_run signer ops).proofId_eq_iff hsha hm hn hmn

end Ids

/-! Two loans with the same decision. -/

/-- Both first decisions have the payload of the loan's. -/
theorem twoLoans_payloads : ∃ p q, recorded (Engine.fresh.run loanSigner twoLoans).2 =
      [(loanCall "pending" "approved" none, p), (secondCall, q)] ∧
    Inv loanSigner (Engine.fresh.run loanSigner twoLoans).1.db [(loanCall "pending" "approved" none, p), (secondCall, q)] ∧
    (p.payload = loanPayload ∧ p.ledger.sequenceId = 1) ∧ q.payload = loanPayload ∧ q.ledger.sequenceId = 1 := by
  obtain ⟨p, q, hrec⟩ := twoLoans_recorded
  have hinv := inv_run loanSigner twoLoans
  rw [hrec] at hinv
  -- each is the first on its instance
  have hfirst : ∀ {i : String} {a : DecisionArgs} {x : ProofV1},
      onInstance i [(loanCall "pending" "approved" none, p), (secondCall, q)] = [(a, x)] →
      x.ledger.previousHash.text = genesisHash ∧ x.ledger.sequenceId = 1 := by
    intro i a x hon
    have hl := hinv.linked i
    rw [hon] at hl
    exact ⟨hl.1, hl.2.1⟩
  obtain ⟨hpp, hps⟩ := hfirst (i := "loan_1") (a := loanCall "pending" "approved" none) (x := p)
    (by simp [onInstance, loanCall, secondCall])
  obtain ⟨hqp, hqs⟩ := hfirst (i := "loan_2") (a := secondCall) (x := q) (by simp [onInstance, loanCall, secondCall])
  have hbp : Built loanSigner { loanCall "pending" "approved" none with instanceId := "loan_1" } p :=
    hinv.built _ List.mem_cons_self
  have hbq : Built loanSigner { loanCall "pending" "approved" none with instanceId := "loan_2" } q :=
    hinv.built (secondCall, q) (by simp)
  refine ⟨p, q, hrec, hinv, ⟨?_, hps⟩, ?_, hqs⟩
  · rw [hbp.loan_payload (by decide) (by decide), hpp, hps]
    rfl
  · rw [hbq.loan_payload (by decide) (by decide), hqp, hqs]
    rfl

/-- Two rows of one ledger with one id. -/
theorem twoLoans_share_proofId : ∃ r q, (Engine.fresh.run loanSigner twoLoans).1.db.ledger = [r, q] ∧ r ≠ q ∧
    r.proofId = q.proofId := by
  obtain ⟨p, q, -, hinv, ⟨hp, hps⟩, hq, hqs⟩ := twoLoans_payloads
  have hbp := hinv.built _ List.mem_cons_self
  have hbq := hinv.built (secondCall, q) (by simp)
  have hcur : p.ledger.currentHash.text = q.ledger.currentHash.text := by rw [hbp.hash_eq, hbq.hash_eq, hp, hq]
  refine ⟨p.row, q.row, hinv.ledger, fun heq => ?_, ?_⟩
  · have hi : p.instanceId = q.instanceId := congrArg LedgerRow.instanceId heq
    rw [hbp.instanceId, hbq.instanceId] at hi
    exact absurd hi (show "loan_1" ≠ "loan_2" by decide)
  · have hid : ∀ x : ProofV1, x.row.proofId = computeProofId x.ledger.currentHash.text x.ledger.sequenceId := fun _ => rfl
    rw [hid, hid, hcur, hps, hqs]

/-- The texts hashed for the two loans. -/
theorem idTexts_twoLoans : idTexts (recorded (Engine.fresh.run loanSigner twoLoans).2) ⊆
    {dumps loanPayload, loanHash ++ ":1"} := by
  obtain ⟨p, q, hrec, hinv, ⟨hp, hps⟩, hq, hqs⟩ := twoLoans_payloads
  rw [hrec]
  have hboth : ∀ ap ∈ [(loanCall "pending" "approved" none, p), (secondCall, q)],
      ap.2.payload = loanPayload ∧ ap.2.ledger.sequenceId = 1 := by
    intro ap hap
    rcases List.mem_pair.1 hap with rfl | rfl
    · exact ⟨hp, hps⟩
    · exact ⟨hq, hqs⟩
  rintro t (⟨ap, hap, rfl⟩ | ⟨ap, hap, rfl⟩)
  · exact .inl (congrArg dumps (hboth ap hap).1)
  · refine .inr ?_
    have hone : ":" ++ toString (1 : ℤ) = ":1" := by decide
    rw [idText, (hinv.built ap hap).hash_eq, (hboth ap hap).1, (hboth ap hap).2, String.append_assoc, hone]
    exact Set.mem_singleton _

/-- The two loans have one id because they have one history. -/
theorem proofId_shared_twoLoans : ∃ r q, (Engine.fresh.run loanSigner twoLoans).1.db.ledger[0]? = some r ∧
    (Engine.fresh.run loanSigner twoLoans).1.db.ledger[1]? = some q ∧
    (r.proofId = q.proofId ↔ r.instanceId ≠ q.instanceId ∧
      history (recorded (Engine.fresh.run loanSigner twoLoans).2) 0 =
        history (recorded (Engine.fresh.run loanSigner twoLoans).2) 1) := by
  obtain ⟨p, q, -, hinv, -⟩ := twoLoans_payloads
  have h₀ : (Engine.fresh.run loanSigner twoLoans).1.db.ledger[0]? = some p.row := by rw [hinv.ledger]; rfl
  have h₁ : (Engine.fresh.run loanSigner twoLoans).1.db.ledger[1]? = some q.row := by rw [hinv.ledger]; rfl
  refine ⟨p.row, q.row, h₀, h₁, proofId_shared_iff twoLoans (CollisionFree.mono ?_ idTexts_twoLoans) h₀ h₁ (by decide)⟩
  refine Set.injOn_pair.2 fun h => absurd h fun h => ?_
  rw [sha256Hex, sha256Hex, toHex_inj, sha256_loanPayload] at h
  have hhead := loanHash_heads.2.1
  rw [← h] at hhead
  exact absurd hhead (by decide)

end ProvableAi
