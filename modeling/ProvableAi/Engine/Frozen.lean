/-
# Calls after an export

`export_proof` sets the `frozen` flag of the instance, and `record_decision`
never reads it: a call after the export is refused only by the checks that
would have refused it before.  `frozen_final_of_refused` is what is left of the
freeze: in a run where those checks refuse every later call on the instance,
its rows stay as they are and every later export returns the same package.
`recorded_after_export` is the run where they do not.
-/

import ProvableAi.Engine.Runs

namespace ProvableAi

variable {signer : Signer}

/-- Every `record_decision` on the instance is refused where it is made: its
arguments are not recordable, or the signer raises. -/
def RefusedOn (signer : Signer) (i : String) : Engine → List Op → Prop
  | _, [] => True
  | s, op :: ops =>
    (∀ env a, op = .recordDecision env a → a.instanceId = i → ¬ Recordable s.db a ∨ env.signFault ≠ none) ∧
      RefusedOn signer i (s.step signer op).2 ops

/-- One call that is no accepted decision on `i` leaves the decisions on `i`. -/
theorem onInstance_step {s : Engine} {acc : List (DecisionArgs × ProofV1)} (h : Inv signer s.db acc) {i : String}
    {op : Op}
    (hr : ∀ env a, op = .recordDecision env a → a.instanceId = i → ¬ Recordable s.db a ∨ env.signFault ≠ none) :
    onInstance i (acc ++ recorded [⟨op, (s.step signer op).1, s.sent op⟩]) = onInstance i acc ∧
      ∀ env a, op = .recordDecision env a → a.instanceId = i → ∃ e, (s.step signer op).1 = .raised e := by
  rw [onInstance, List.filter_append]
  cases op with
  | recordDecision env a =>
    obtain ⟨e, he⟩ | ⟨p, hp, -, hrec, hfault⟩ := h.record_cases env a
    · have hstep : (s.step signer (.recordDecision env a)).1 = .raised e := by rw [Engine.step, he]
      rw [hstep]
      exact ⟨by simp [recorded, onInstance], fun _ _ _ _ => ⟨e, rfl⟩⟩
    · -- it returned, so it is on another instance
      have hi : a.instanceId ≠ i := fun hi => by
        rcases hr env a rfl hi with hn | hn
        · exact hn hrec
        · exact hn hfault
      have hstep : (s.step signer (.recordDecision env a)).1 = .proof p := by rw [Engine.step, hp]
      rw [hstep]
      refine ⟨by simp [recorded, onInstance, hi], ?_⟩
      rintro _ _ ⟨⟩ hi'
      exact absurd hi' hi
  | _ => exact ⟨by simp [recorded, onInstance], by simp⟩

/-- Through a run in which every call on `i` is refused, each raises and the
decisions on `i` stay. -/
theorem onInstance_run {i : String} {ops : List Op} :
    ∀ {s : Engine} {acc : List (DecisionArgs × ProofV1)}, Inv signer s.db acc → RefusedOn signer i s ops →
      onInstance i (acc ++ recorded (s.run signer ops).2) = onInstance i acc ∧
      (∀ ev ∈ (s.run signer ops).2, ∀ env a, ev.op = .recordDecision env a → a.instanceId = i →
        ∃ e, ev.outcome = .raised e) ∧
      ∀ ev ∈ (s.run signer ops).2, ∀ env pkg, ev.op = .exportProof env i → ev.outcome = .package pkg →
        pkg = chainPackage signer i ((onInstance i acc).map Prod.snd) := by
  induction ops with
  | nil => intro s acc _ _; simp [Engine.run, recorded]
  | cons op ops ih =>
    intro s acc hinv hr
    obtain ⟨hsame, hraise⟩ := onInstance_step hinv hr.1
    obtain ⟨hrest, hraises, hpkgs⟩ := ih (Engine.step_inv hinv op) hr.2
    rw [List.append_assoc, ← recorded_append] at hrest
    rw [hsame] at hrest hpkgs
    refine ⟨hrest, ?_, ?_⟩
    · rintro ev hev env a hop hi
      rcases List.mem_cons.1 hev with rfl | hev
      · exact hraise env a hop hi
      · exact hraises ev hev env a hop hi
    · rintro ev hev env pkg hop hout
      rcases List.mem_cons.1 hev with rfl | hev
      · obtain rfl : op = .exportProof env i := hop
        have hout : (s.step signer (.exportProof env i)).1 = .package pkg := hout
        rw [Engine.step, hinv.exportProof_eq] at hout
        cases hf : env.signFault with
        | some e => rw [hf] at hout; cases hout
        | none => rw [hf] at hout; exact (Outcome.package.inj hout).symm
      · exact hpkgs ev hev env pkg hop hout

/-- **What the freeze leaves.**  Once `export_proof` returned a package for an
instance with a decision, in a run where every later `record_decision` on it is
refused by the other checks: each of these calls raises, the rows of the
instance stay, and every later export that returns gives the same package. -/
theorem frozen_final_of_refused (before after : List Op) (env : CallEnv) (i : String) (pkg : Json)
    (hne : onInstance i (recorded (Engine.fresh.run signer before).2) ≠ [])
    (hexp : ((Engine.fresh.run signer before).1.step signer (.exportProof env i)).1 = .package pkg)
    (hrefused : RefusedOn signer i ((Engine.fresh.run signer before).1.step signer (.exportProof env i)).2 after) :
    let frozen := ((Engine.fresh.run signer before).1.step signer (.exportProof env i)).2
    let later := frozen.run signer after
    (∀ ev ∈ later.2, ∀ env' a, ev.op = .recordDecision env' a → a.instanceId = i →
      ∃ e, ev.outcome = .raised e) ∧
    rowsOf frozen.db.ledger defaultTenant i ≠ [] ∧
    rowsOf later.1.db.ledger defaultTenant i = rowsOf frozen.db.ledger defaultTenant i ∧
    ∀ ev ∈ later.2, ∀ env' pkg', ev.op = .exportProof env' i → ev.outcome = .package pkg' → pkg' = pkg := by
  intro frozen later
  have hinv := inv_run signer before
  have hfrozen : Inv signer frozen.db (recorded (Engine.fresh.run signer before).2) := by
    have h := Engine.step_inv hinv (.exportProof env i)
    rw [hexp] at h
    simpa [recorded] using h
  have hpkg : pkg = chainPackage signer i
      ((onInstance i (recorded (Engine.fresh.run signer before).2)).map Prod.snd) :=
    hinv.package_eq hexp
  obtain ⟨hsame, hraises, hpkgs⟩ := onInstance_run hfrozen hrefused
  refine ⟨hraises, ?_, ?_, ?_⟩
  · rw [hfrozen.rowsOf_eq]
    simpa using hne
  · rw [(hfrozen.run after).rowsOf_eq, hfrozen.rowsOf_eq, hsame]
  · rw [hpkg]
    exact hpkgs

/-! The loan, exported. -/

/-- A call with a model that is not approved. -/
def unapprovedCall : DecisionArgs := { loanCall "approved" "funded" none with modelVersion := "v2.0.0" }

/-- After the export a call with a model that is not approved raises, and the next
export returns the package of the first. -/
theorem frozen_final_unapproved :
    ∃ pkg frozen, (Engine.fresh.run loanSigner (loanRun none)).1.step loanSigner (.exportProof loanEnv "loan_1") =
        (.package pkg, frozen) ∧
      (∀ ev ∈ (frozen.run loanSigner [.recordDecision loanEnv unapprovedCall, .exportProof loanEnv "loan_1"]).2,
        ∀ env' a, ev.op = .recordDecision env' a → a.instanceId = "loan_1" → ∃ e, ev.outcome = .raised e) ∧
      ∀ ev ∈ (frozen.run loanSigner [.recordDecision loanEnv unapprovedCall, .exportProof loanEnv "loan_1"]).2,
        ∀ env' pkg', ev.op = .exportProof env' "loan_1" → ev.outcome = .package pkg' → pkg' = pkg := by
  obtain ⟨p, frozen, -, hrec, hstep, -, hdb⟩ := loanRun_exports
  have hrefused : RefusedOn loanSigner "loan_1" frozen
      [.recordDecision loanEnv unapprovedCall, .exportProof loanEnv "loan_1"] := by
    refine ⟨?_, ?_, trivial⟩
    · rintro _ _ ⟨⟩ -
      refine .inl fun h => ?_
      have hm : "v2.0.0" ∈ frozen.db.modelVersions := h.modelVersion
      rw [hdb] at hm
      have hm : "v2.0.0" ∈ approved.db.modelVersions := hm
      exact absurd hm (by decide)
    · rintro _ _ ⟨⟩
  have h := frozen_final_of_refused (loanRun none)
    [.recordDecision loanEnv unapprovedCall, .exportProof loanEnv "loan_1"] loanEnv "loan_1"
    (chainPackage loanSigner "loan_1" [p]) (by rw [hrec]; simp [onInstance, loanCall]) (by rw [hstep])
    (by rw [hstep]; exact hrefused)
  rw [hstep] at h
  exact ⟨_, frozen, hstep, h.1, h.2.2.2⟩

/-! ### A decision after the export -/

/-- The payload of the loan's decision on any instance, by its place in the chain. -/
theorem Built.loan_payload {signer : Signer} {i f t : String} {p : ProofV1} (hf : f ≠ "") (ht : t ≠ "")
    (hb : Built signer { loanCall f t none with instanceId := i } p) :
    p.payload = hashPayload (Decision.dump ⟨f, t, hf, ht⟩) loanContext.dump loanGovernance.dump
      (Determinism.dump ⟨.strictDeterministic, none, none, unseeded_fields⟩) p.ledger.previousHash.text
      p.ledger.sequenceId := by
  have hc := hb.carries
  obtain ⟨_, ⟨⟩, hinputs⟩ := hc.inputsHash
  have hmeta : p.decisionContext.metadata = [] := by
    have hm := Option.some.inj hc.metadata
    rw [Json.obj.injEq] at hm
    exact hm.symm
  have hcalls : p.determinism.externalCallsHash = none := by
    have := hb.calls
    rwa [if_neg fun h => by cases h] at this
  have hd : p.decision.dump = Decision.dump ⟨f, t, hf, ht⟩ := by
    rw [Decision.dump, hc.fromState, hc.toState]
    rfl
  have hctx : p.decisionContext.dump = loanContext.dump := by
    rw [DecisionContext.dump, hc.reasonCode, hc.policyRule, hc.contextModel, hinputs, hc.features, hc.threshold, hmeta]
    rfl
  have hg : p.governance.dump = loanGovernance.dump := by
    rw [Governance.dump, hc.modelVersion, hc.agentVersion, hc.policyVersion]
    rfl
  have hdet : p.determinism.dump = Determinism.dump ⟨.strictDeterministic, none, none, unseeded_fields⟩ := by
    rw [Determinism.dump, hb.mode, hb.seed, hcalls]
    rfl
  rw [ProofV1.payload, hd, hctx, hg, hdet]

/-- The payload of a call on the loan, at its place in the chain. -/
theorem loanCall_payload {db : Db} (hch : Chained db.ledger) (hx : HexRows db.ledger) {f t : String} {p : ProofV1}
    (hf : f ≠ "") (ht : t ≠ "") (h : buildProof db loanSigner loanEnv (loanCall f t none) = .ok p) :
    p.payload = hashPayload (Decision.dump ⟨f, t, hf, ht⟩) loanContext.dump loanGovernance.dump
      (Determinism.dump ⟨.strictDeterministic, none, none, unseeded_fields⟩) (tipOf db "loan_1")
      ((rowsOf db.ledger defaultTenant "loan_1").length + 1) := by
  obtain ⟨hb, hprev, hseq⟩ := buildProof_ok hch hx h
  rw [Built.loan_payload (i := "loan_1") hf ht hb, hprev, hseq]
  rfl

/-- The digest of the loan's decision. -/
def loanDigest : Bytes :=
  [0x1b, 0x97, 0x29, 0xd5, 0x32, 0x6c, 0xa6, 0xda, 0x3f, 0xd4, 0xab, 0x8b, 0x8b, 0x73, 0x85, 0x19,
   0xce, 0x62, 0xe4, 0x1e, 0x43, 0x1b, 0xcc, 0x51, 0x87, 0xd3, 0x84, 0x48, 0xd1, 0x06, 0x78, 0x94]

theorem sha256_loanPayload : sha256 (utf8 (dumps loanPayload)) = loanDigest := sha256_dumps (by decide +kernel)

theorem loanHash_eq : loanHash = "1b9729d5326ca6da3fd4ab8b8b738519ce62e41e431bcc5187d38448d1067894" := by
  rw [loanHash, sha256Hex, sha256_loanPayload]
  decide

/-- The digests of that hash, alone and with the number of the row, and of nothing begin with
other bytes. -/
theorem loanHash_heads : (sha256 (utf8 loanHash)).head? = some 0xde ∧
    (sha256 (utf8 (loanHash ++ ":1"))).head? = some 0xc6 ∧ (sha256 (utf8 "")).head? = some 0xe3 := by
  rw [loanHash_eq]
  decide +kernel

/-- The decision after the loan's has another hash. -/
theorem fundedPayload_hash_ne : loanHash ≠ sha256Hex (dumps fundedPayload) := by
  intro h
  rw [loanHash, sha256Hex, sha256Hex, toHex_inj, sha256_loanPayload] at h
  have hhead : (sha256 (utf8 (dumps fundedPayload))).head? = some 0x6a := by
    rw [fundedPayload, loanHash_eq]
    exact sha256_dumps_head (by decide +kernel)
  rw [← h] at hhead
  exact absurd hhead (by decide)

/-- The decision after the loan's is recorded, on any database that holds the loan's
row and the approvals. -/
theorem funded_records {db : Db} {p : ProofV1} (hinv : Inv loanSigner db [(loanCall "pending" "approved" none, p)])
    (hb : buildProof approved.db loanSigner loanEnv (loanCall "pending" "approved" none) = .ok p)
    (hrecordable : Recordable db (loanCall "approved" "funded" none)) :
    ∃ q, buildProof db loanSigner loanEnv (loanCall "approved" "funded" none) = .ok q ∧
      recordDecision db loanSigner loanEnv (loanCall "approved" "funded" none) =
        (.ok q, db.appended loanEnv.now.text q.toDict) := by
  have hon : onInstance "loan_1" [(loanCall "pending" "approved" none, p)] =
      [(loanCall "pending" "approved" none, p)] := by simp [onInstance, loanCall]
  -- the first proof has the loan's hash, and the second one comes after it
  have hp : p.payload = loanPayload :=
    loanCall_payload approved_inv.chained approved_inv.hexRows (by decide) (by decide) hb
  have hrows : rowsOf db.ledger defaultTenant "loan_1" = [p.row] := by
    rw [hinv.rowsOf_eq, hon]
    rfl
  have hcur : p.ledger.currentHash.text = loanHash := by
    rw [(hinv.built _ (List.mem_singleton_self _)).hash_eq, hp, loanHash]
  have htip : tipOf db "loan_1" = loanHash := by
    rw [tipOf, hrows, ← hcur]
    rfl
  refine hinv.record_returns loanEnv hrecordable rfl fun q hq ap hap heq => ?_
  have hap : ap ∈ onInstance "loan_1" [(loanCall "pending" "approved" none, p)] := hap
  rw [hon] at hap
  obtain rfl := List.mem_singleton.1 hap
  have hpay := loanCall_payload hinv.chained hinv.hexRows (by decide) (by decide) hq
  rw [htip, hrows] at hpay
  have hqcur := (buildProof_ok hinv.chained hinv.hexRows hq).1.hash_eq
  rw [hpay, ← heq, hcur] at hqcur
  exact fundedPayload_hash_ne hqcur

/-- The loan is recorded and exported, and a decision after the export is recorded
too: the chain grows. -/
theorem recorded_after_export :
    ∃ pkg frozen q, (Engine.fresh.run loanSigner (loanRun none)).1.step loanSigner (.exportProof loanEnv "loan_1") =
        (.package pkg, frozen) ∧
      onInstance "loan_1" (recorded (Engine.fresh.run loanSigner (loanRun none)).2) ≠ [] ∧
      (frozen.step loanSigner (.recordDecision loanEnv (loanCall "approved" "funded" none))).1 = .proof q ∧
      rowsOf (frozen.step loanSigner (.recordDecision loanEnv (loanCall "approved" "funded" none))).2.db.ledger
        defaultTenant "loan_1" = rowsOf frozen.db.ledger defaultTenant "loan_1" ++ [q.row] := by
  obtain ⟨p, frozen, hb, hrec, hstep, hinv, hdb⟩ := loanRun_exports
  have hon : onInstance "loan_1" [(loanCall "pending" "approved" none, p)] =
      [(loanCall "pending" "approved" none, p)] := by simp [onInstance, loanCall]
  have hrecordable : Recordable frozen.db (loanCall "approved" "funded" none) := by
    rw [hdb]
    exact loanCall_recordable none (approved_recordable none).modelVersion (approved_recordable none).agentVersion
      (approved_recordable none).policyVersion (by decide) (by decide)
  obtain ⟨q, hqb, hq⟩ := funded_records hinv hb hrecordable
  have hqi : q.row.instanceId = "loan_1" := (buildProof_ok hinv.chained hinv.hexRows hqb).1.instanceId
  have hqstep : frozen.step loanSigner (.recordDecision loanEnv (loanCall "approved" "funded" none)) =
      (.proof q, { frozen with db := frozen.db.appended loanEnv.now.text q.toDict }) := by
    rw [Engine.step, hq]
  refine ⟨_, frozen, q, hstep, ?_, ?_, ?_⟩
  · rw [hrec, hon]
    simp
  · rw [hqstep]
  · rw [hqstep]
    have hself : rowsOf [q.row] defaultTenant "loan_1" = [q.row] := hqi ▸ rowsOf_self q.row
    rw [← hself]
    exact rowsOf_append _ _ _ _

end ProvableAi
