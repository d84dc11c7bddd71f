/-
# The export of the facade

`Engine.export_proof` differs from `GovernanceEngine.export_proof` in its root:
`Engine._compute_instance_root` hashes the `current_hash` column, and raises for an
instance without rows.  `step` of the facade has the other one; `act` is a call with
this one.

`export_final`: an export of an instance without rows raises and changes nothing;
after one that returned, the instance never moves again, `compare_instance_root`
confirms the exported root, and every further export returns the same package.
`facade_conformance` follows every instance along the protocol it was created under.
-/

import ProvableAi.Engine.Facade
import ProvableAi.Package.OnChain

namespace ProvableAi
namespace Facade

open Lockstep

/-- `_compute_instance_root` of the facade. -/
def computeInstanceRoot (db : Db) (instanceId : String) : Except PyErr String :=
  match db.getLedgerChain instanceId defaultTenant with
  | [] => .error (.valueError ("Instance '" ++ instanceId ++ "' not found."))
  | chain => .ok (sha256Hex (String.join (chain.map LedgerRow.currentHash)))

/-- What `compare_instance_root` returns. -/
structure RootComparison where
  matched : Bool
  instanceId : String
  current : String

/-- `compare_instance_root`; `_compute_instance_root` makes its check of the chain again. -/
def compareInstanceRoot (db : Db) (instanceId expectedRoot : String) : Except PyErr RootComparison := do
  let current ← computeInstanceRoot db instanceId
  pure ⟨current = expectedRoot, instanceId, current⟩

/-- `export_proof` of the facade up to the signature. -/
def signedPackage (db : Db) (signer : Signer) (env : CallEnv) (instanceId : String) : Except PyErr Json := do
  let ledger ← proofDicts (db.getLedgerChain instanceId defaultTenant)
  let root ← computeInstanceRoot db instanceId
  let sigHex ← signHash signer env ((fromHex root).getD [])
  pure (exportPackage (toHex signer.publicKey) sigHex instanceId root ledger)

/-- `export_proof` of the facade. -/
def exportProof (db : Db) (signer : Signer) (env : CallEnv) (instanceId : String) : Except PyErr Json × Db :=
  match signedPackage db signer env instanceId with
  | .error e => (.error e, db)
  | .ok package => (.ok package, db.freezeInstance instanceId defaultTenant)

/-- One call of the facade. -/
def act (signer : Signer) (s : Engine) : Op → Outcome × Engine
  | .exportProof env i =>
    match exportProof s.db signer env i with
    | (.ok j, db) => (.package j, { s with db := db })
    | (.error e, db) => (.raised e, { s with db := db })
  | op => step signer s op

/-- The facade after the calls, on a fresh database. -/
def reached (signer : Signer) (ops : List Op) : Engine := final (act signer) .fresh ops

theorem reached_concat (signer : Signer) (ops : List Op) (op : Op) :
    reached signer (ops ++ [op]) = (act signer (reached signer ops) op).2 := by
  rw [reached, reached, final_concat]

variable {signer : Signer} {ed : Ed25519} {s : Engine}

/-! ### What one call does -/

/-- Without rows there is nothing to export. -/
theorem signedPackage_nil {db : Db} {i : String} (h : OnChain db i []) (env : CallEnv) :
    signedPackage db signer env i = .error (.valueError ("Instance '" ++ i ++ "' not found.")) := by
  have hc : db.getLedgerChain i defaultTenant = [] := h.chain
  rw [signedPackage, computeInstanceRoot, hc]
  rfl

theorem computeInstanceRoot_eq {db : Db} {i : String} {ps : List ProofV1} (h : OnChain db i ps) (hne : ps ≠ []) :
    computeInstanceRoot db i = .ok (sha256Hex (rootText ps)) := by
  obtain ⟨p, rest, rfl⟩ := List.exists_cons_of_ne_nil hne
  rw [computeInstanceRoot, h.chain, List.map_cons]
  simp only [rootText, List.map_cons, List.map_map]
  rfl

/-- With rows both exports sign one package. -/
theorem signedPackage_eq_signedExport {db : Db} {i : String} {ps : List ProofV1} (h : OnChain db i ps) (hne : ps ≠ [])
    (signer : Signer) (env : CallEnv) : signedPackage db signer env i = signedExport db signer env i := by
  have hd : proofDicts (db.getLedgerChain i defaultTenant) = .ok (ps.map ProofV1.document) := by
    rw [h.chain]
    exact proofDicts_rows h.wf
  have hroot : db.computeInstanceRoot i = .ok (sha256Hex (rootText ps)) := by
    rw [Db.computeInstanceRoot, hd]
    exact instanceRoot_documents h.wf
  rw [signedPackage, signedExport, hd, computeInstanceRoot_eq h hne, hroot]

/-- With rows the two exports are one. -/
theorem exportProof_eq_engine {db : Db} {i : String} {ps : List ProofV1} (h : OnChain db i ps) (hne : ps ≠ [])
    (signer : Signer) (env : CallEnv) : exportProof db signer env i = ProvableAi.exportProof db signer env i := by
  have hs := signedPackage_eq_signedExport h hne signer env
  cases hx : signedExport db signer env i with
  | error e => simp only [exportProof, ProvableAi.exportProof, hs, hx]
  | ok package => simp only [exportProof, ProvableAi.exportProof, hs, hx]

/-- **What the facade's `export_proof` does**: on an instance without rows it raises; else
it is that of the engine. -/
theorem act_exportProof {acc : List (DecisionArgs × ProofV1)} (h : Inv signer s.db acc) (env : CallEnv) (i : String) :
    (rows s i = [] ∧
      act signer s (.exportProof env i) = (.raised (.valueError ("Instance '" ++ i ++ "' not found.")), s)) ∨
    rows s i ≠ [] ∧ act signer s (.exportProof env i) = step signer s (.exportProof env i) := by
  have hchain := h.onChain i
  obtain ⟨ps, hps⟩ : ∃ ps, ps = (onInstance i acc).map Prod.snd := ⟨_, rfl⟩
  rw [← hps] at hchain
  have hrows : rows s i = ps.map ProofV1.row := hchain.rows
  cases ps with
  | nil =>
    refine .inl ⟨hrows, ?_⟩
    rw [act, exportProof, signedPackage_nil hchain]
  | cons p ps =>
    refine .inr ⟨by rw [hrows]; simp, ?_⟩
    have he := exportProof_eq_engine hchain (by simp) signer env
    rcases hx : ProvableAi.exportProof s.db signer env i with ⟨e | package, db⟩
    · simp only [act, step, he, hx]
    · simp only [act, step, he, hx]

/-- A transition raises and changes nothing, or records a proof on its instance. -/
theorem transition_records (signer : Signer) (s : Engine) (env : CallEnv) (c : TransitionCall) :
    (∃ e, transition signer s env c = (.raised e, s)) ∨
      ∃ a p h v, a.instanceId = c.instanceId ∧ buildProof s.db signer env a = .ok p ∧
        (s.db.getInstance c.instanceId defaultTenant).any InstanceRow.frozen = false ∧
        transition signer s env c = (.transitioned c.toState v p.proofId,
          { s with
            db := s.db.appended env.now.text p.toDict
            instances := (c.instanceId, .str c.toState, h) :: s.instances }) := by
  rw [transition]
  cases hcheck : checkTransition s c with
  | error e => exact .inl ⟨e, rfl⟩
  | ok fh =>
    obtain ⟨state, h⟩ := fh
    cases hmd : loadMetadata c.metadataJson with
    | error e => exact .inl ⟨e, rfl⟩
    | ok md =>
      simp only
      cases state with
      | str f =>
        rw [recordTransition, recordDecision]
        cases hb : buildProof s.db signer env (c.args f md) with
        | error e => exact .inl ⟨e, rfl⟩
        | ok p =>
          simp only
          rcases appendUnconstrained_cases s.db env.now.text p.toDict with ⟨e, he⟩ | hok
          · rw [he]
            exact .inl ⟨e, rfl⟩
          · rw [hok]
            exact .inr ⟨_, p, h, _, rfl, hb, (checkTransition_ok hcheck).2.1, rfl⟩
      | _ =>
        simp only [recordTransition]
        cases validateMetadata (Json.toPyMembers md.1) with
        | error e => exact .inl ⟨e, rfl⟩
        | ok _ => exact .inl ⟨_, rfl⟩

/-! ### Whole runs -/

/-- What every run keeps: the ledger is that of proofs, and every instance with rows has
a row in `instances`. -/
structure Kept (signer : Signer) (s : Engine) : Prop where
  proofs : ∃ acc, Inv signer s.db acc
  tenants : ∀ q ∈ s.db.instances, q.tenantId = defaultTenant
  listed : ∀ r ∈ s.db.ledger, ∃ q, s.db.getInstance r.instanceId defaultTenant = some q

/-- A built proof that is appended keeps the engine's invariant. -/
theorem inv_appended {db : Db} {acc : List (DecisionArgs × ProofV1)} (h : Inv signer db acc) {env : CallEnv}
    {a : DecisionArgs} {p : ProofV1} (hp : buildProof db signer env a = .ok p) :
    Inv signer (db.appended env.now.text p.toDict) (acc ++ [(a, p)]) := by
  obtain ⟨hb, hprev, hseq⟩ := buildProof_ok h.chained h.hexRows hp
  rw [← hb.instanceId] at hprev hseq
  refine ⟨?_, ?_, h.chained.concat (r := p.row) hseq hprev⟩
  · rw [List.map_append, ← h.ledger]
    rfl
  · intro ap hap
    rcases List.mem_append.1 hap with hap | hap
    · exact h.built ap hap
    · obtain rfl := List.mem_singleton.1 hap
      exact hb

namespace Kept

theorem fresh : Kept signer .fresh where
  proofs := ⟨[], Inv.fresh⟩
  tenants := by simp [Engine.fresh, Db.fresh]
  listed := by simp [Engine.fresh, Db.fresh]

/-- A call that leaves the rows. -/
theorem frame (h : Kept signer s) {t : Engine} (hl : t.db.ledger = s.db.ledger) (hi : t.db.instances = s.db.instances) :
    Kept signer t := by
  obtain ⟨acc, hinv⟩ := h.proofs
  have hg : ∀ i, t.db.getInstance i defaultTenant = s.db.getInstance i defaultTenant := fun i => by
    rw [Db.getInstance, Db.getInstance, hi]
  exact ⟨⟨acc, hinv.of_ledger_eq hl⟩, hi ▸ h.tenants, by simpa only [hl, hg] using h.listed⟩

/-- A frozen instance is in the table still. -/
theorem freeze (h : Kept signer s) (i : String) : Kept signer { s with db := s.db.freezeInstance i defaultTenant } := by
  obtain ⟨acc, hinv⟩ := h.proofs
  refine ⟨⟨acc, hinv.of_ledger_eq rfl⟩, ?_, fun r hr => ?_⟩
  · intro q hq
    obtain ⟨r, hr, rfl⟩ := List.mem_map.1 hq
    have ht := h.tenants r hr
    split_ifs <;> exact ht
  · obtain ⟨q, hq⟩ := h.listed r hr
    exact ⟨_, by rw [getInstance_freeze, hq]; rfl⟩

theorem transition (h : Kept signer s) (env : CallEnv) (c : TransitionCall) :
    Kept signer (Facade.transition signer s env c).2 := by
  rcases transition_records signer s env c with ⟨e, he⟩ | ⟨a, p, hash, v, -, hp, -, he⟩
  · rw [he]
    exact h
  · rw [he]
    obtain ⟨acc, hinv⟩ := h.proofs
    obtain ⟨htenants, hself⟩ := getInstance_appended_self h.tenants env.now.text p
    refine ⟨⟨_, inv_appended hinv hp⟩, htenants, fun r hr => ?_⟩
    rcases List.mem_append.1 hr with hr | hr
    · obtain ⟨q, hq⟩ := h.listed r hr
      exact ⟨q, getInstance_appended hq _ _⟩
    · obtain rfl := List.mem_singleton.1 hr
      exact hself

/-- **One call keeps it.** -/
theorem act (h : Kept signer s) (op : Op) : Kept signer (act signer s op).2 := by
  cases op with
  | compile now spec wf =>
    refine h.frame ?_ ?_
    · simp only [Facade.act, step, Engine.compile, Db.registerProtocol]
      split <;> rfl
    · simp only [Facade.act, step, Engine.compile, Db.registerProtocol]
      split <;> rfl
  | createInstance i =>
    rw [Facade.act]
    · rcases createInstance_cases signer s i with ⟨e, he⟩ | ⟨hash, state, -, -, -, he⟩
      · rw [he]
        exact h
      · rw [he]
        exact h.frame rfl rfl
    · simp
  | transition env c => exact h.transition env c
  | exportProof env i =>
    obtain ⟨acc, hinv⟩ := h.proofs
    rcases act_exportProof hinv env i with ⟨-, he⟩ | ⟨-, he⟩
    · rw [he]
      exact h
    · rw [he]
      rcases export_cases signer s env i with ⟨e, he⟩ | ⟨-, j, he⟩
      · rw [he]
        exact h
      · rw [he]
        exact h.freeze i
  | _ => exact h.frame rfl rfl

theorem final (h : Kept signer s) (ops : List Op) : Kept signer (final (Facade.act signer) s ops) := by
  induction ops generalizing s with
  | nil => exact h
  | cons op ops ih => exact ih (h.act op)

end Kept

/-- A call is that of the facade with the engine's export, but for an export without
rows. -/
theorem act_cases (h : Kept signer s) (op : Op) :
    ((∀ env i, op = .exportProof env i → rows s i ≠ []) ∧ act signer s op = step signer s op) ∨
      ∃ env i, op = .exportProof env i ∧ rows s i = [] ∧
        act signer s op = (.raised (.valueError ("Instance '" ++ i ++ "' not found.")), s) := by
  cases op with
  | exportProof env i =>
    obtain ⟨acc, hinv⟩ := h.proofs
    rcases act_exportProof hinv env i with ⟨hrows, he⟩ | ⟨hrows, he⟩
    · exact .inr ⟨env, i, rfl, hrows, he⟩
    · refine .inl ⟨?_, he⟩
      rintro _ _ ⟨⟩
      exact hrows
  | _ => exact .inl ⟨fun _ _ h => (by cases h), rfl⟩

/-! ### An export is final -/

/-- A frozen instance stays frozen and gains no rows. -/
theorem Frozen.act (h : Kept signer s) {i : String} (hf : Frozen s i) (op : Op) :
    Frozen (act signer s op).2 i ∧ rows (Facade.act signer s op).2 i = rows s i := by
  rcases act_cases h op with ⟨-, he⟩ | ⟨env, j, -, -, he⟩
  · obtain ⟨acc, hinv⟩ := h.proofs
    rw [he]
    exact hf.step signer hinv.chained hinv.hexRows op
  · rw [he]
    exact ⟨hf, rfl⟩

theorem Frozen.final (h : Kept signer s) {i : String} (hf : Frozen s i) (ops : List Op) :
    Frozen (final (Facade.act signer) s ops) i ∧ rows (Lockstep.final (Facade.act signer) s ops) i = rows s i := by
  induction ops generalizing s with
  | nil => exact ⟨hf, rfl⟩
  | cons op ops ih =>
    obtain ⟨hnext, hrows⟩ := hf.act h op
    obtain ⟨hlast, hall⟩ := ih (h.act op) hnext
    exact ⟨hlast, hall.trans hrows⟩

/-- A frozen instance refuses every transition. -/
theorem Frozen.refuses {i : String} (hf : Frozen s i) (env : CallEnv) {c : TransitionCall} (hc : c.instanceId = i) :
    ∃ e, Facade.act signer s (.transition env c) = (.raised e, s) := by
  rcases transition_records signer s env c with he | ⟨a, p, hash, v, -, -, hfree, -⟩
  · exact he
  · rw [hc] at hfree
    rw [Frozen, hfree] at hf
    cases hf

/-- What an export leaves: the rows `rs`, for good, under the root of the package. -/
structure Final (signer : Signer) (s : Engine) (i : String) (rs : List LedgerRow) (package : Json) : Prop where
  rows : rows s i = rs
  transition : ∀ env c, c.instanceId = i → ∃ e, act signer s (.transition env c) = (.raised e, s)
  exportProof : ∀ env, env.signFault = none → (act signer s (.exportProof env i)).1 = .package package
  root : ∃ root, (proofBlock package).get? "instance_root" = some (.str root) ∧
    ∀ expected, compareInstanceRoot s.db i expected = .ok ⟨root = expected, i, root⟩

/-- The package of the rows of an instance. -/
theorem act_package {acc : List (DecisionArgs × ProofV1)} (h : Inv signer s.db acc) {env : CallEnv} {i : String}
    (hf : env.signFault = none) (hrows : rows s i ≠ []) :
    act signer s (.exportProof env i) = (.package (chainPackage signer i ((onInstance i acc).map Prod.snd)),
      { s with db := s.db.freezeInstance i defaultTenant }) := by
  rcases act_exportProof h env i with ⟨hnil, -⟩ | ⟨-, he⟩
  · exact absurd hnil hrows
  · rw [he, step, h.exportProof_eq, hf]

/-- An instance with rows has an entry to freeze. -/
theorem Kept.frozen (h : Kept signer s) {i : String} (hrows : rows s i ≠ []) :
    Frozen { s with db := s.db.freezeInstance i defaultTenant } i := by
  obtain ⟨r, hr⟩ := List.exists_mem_of_ne_nil _ hrows
  obtain ⟨hmem, -, hri⟩ := mem_rowsOf.1 hr
  obtain ⟨q, hq⟩ := h.listed r hmem
  rw [hri] at hq
  have hkey := List.find?_some hq
  refine frozen_iff.2 ⟨_, by rw [getInstance_freeze, hq]; rfl, ?_⟩
  simp only
  rw [if_pos (by simpa using hkey)]

/-- The package is made of the rows. -/
theorem chainPackage_of_rows (signer : Signer) {db db' : Db} {i : String} {ps qs : List ProofV1}
    (hp : OnChain db i ps) (hq : OnChain db' i qs) (h : rowsOf db.ledger defaultTenant i = rowsOf db'.ledger defaultTenant i) :
    chainPackage signer i ps = chainPackage signer i qs ∧ rootText ps = rootText qs := by
  rw [hp.rows, hq.rows] at h
  have hdocs : ps.map ProofV1.document = qs.map ProofV1.document := by
    have hd := proofDicts_rows hp.wf
    rw [h, proofDicts_rows hq.wf] at hd
    exact (Except.ok.inj hd).symm
  have hroot : rootText ps = rootText qs := by
    have htexts := congrArg (List.map LedgerRow.currentHash) h
    rw [List.map_map, List.map_map] at htexts
    exact congrArg String.join htexts
  exact ⟨by rw [chainPackage, chainPackage, hdocs, hroot], hroot⟩

/-- **An export is final.**  In every run of one facade on a fresh database: an export
of an instance without rows raises and changes nothing.  A package that is returned
is accepted by `verify_package`; and whatever is called after it, the instance keeps
its rows, refuses every transition, exports the same package, and
`compare_instance_root` matches the root in the package and nothing else. -/
theorem export_final (signer : Signer) (past : List Op) (env : CallEnv) (i : String) :
    (rows (reached signer past) i = [] → act signer (reached signer past) (.exportProof env i) =
      (.raised (.valueError ("Instance '" ++ i ++ "' not found.")), reached signer past)) ∧
    ∀ package, (act signer (reached signer past) (.exportProof env i)).1 = .package package →
      (∀ ed, signer.Honest ed → ∃ cs m, verifyPackage ed package = .ok (true, cs, m)) ∧
      ∀ later, Final signer (reached signer (past ++ .exportProof env i :: later)) i (rows (reached signer past) i)
        package := by
  have hkept : Kept signer (reached signer past) := Kept.fresh.final past
  obtain ⟨acc, hinv⟩ := hkept.proofs
  rcases act_exportProof hinv env i with ⟨hnil, he⟩ | ⟨hne, he⟩
  · refine ⟨fun _ => he, fun package hpackage => ?_⟩
    rw [he] at hpackage
    cases hpackage
  · refine ⟨fun hnil => absurd hnil hne, fun package hpackage => ?_⟩
    have hchain := hinv.onChain i
    have hps : (onInstance i acc).map Prod.snd ≠ [] := by
      intro hnil
      rw [rows, hchain.rows, hnil] at hne
      exact hne rfl
    -- the call returned, so the signer did not raise
    have hfault : env.signFault = none := by
      rw [he] at hpackage
      rcases export_cases signer (reached signer past) env i with ⟨e, hraised⟩ | ⟨hfault, -⟩
      · rw [hraised] at hpackage
        cases hpackage
      · exact hfault
    have hact := act_package hinv hfault hne
    rw [hact] at hpackage
    obtain rfl := Outcome.package.inj hpackage
    refine ⟨fun ed hs => hchain.accepted hs hps, fun later => ?_⟩
    have hlater : reached signer (past ++ .exportProof env i :: later) =
        final (act signer) (act signer (reached signer past) (.exportProof env i)).2 later := by
      rw [reached, final, List.foldl_append, List.foldl_cons]
      rfl
    have hnext := hkept.act (.exportProof env i)
    rw [hlater]
    rw [hact] at hnext ⊢
    obtain ⟨hfrozen, hrows⟩ := (hkept.frozen hne).final hnext later
    obtain ⟨acc', hinv'⟩ := (hnext.final later).proofs
    have hchain' := hinv'.onChain i
    obtain ⟨hpackage, hroot⟩ := chainPackage_of_rows signer hchain' hchain hrows
    have hne' := hne
    rw [← show _ = rows (reached signer past) i from hrows] at hne'
    refine ⟨hrows, fun env' c hc => hfrozen.refuses env' hc, fun env' hf => ?_, sha256Hex (rootText _), rfl, fun expected => ?_⟩
    · rw [act_package hinv' hf hne', hpackage]
    · have hps' : (onInstance i acc').map Prod.snd ≠ [] := by
        intro hnil
        rw [rows, hchain'.rows, hnil] at hne'
        exact hne' rfl
      rw [compareInstanceRoot, computeInstanceRoot_eq hchain' hps', hroot]
      rfl

/-! The loan: exported too early, moved, exported, and moved again in vain. -/

/-- An export of the loan. -/
def exportLoan : Op := .exportProof loanEnv "loan_1"

/-- Its transition. -/
def moveLoan : Op := .transition loanEnv loanStep

theorem reached_loanSetup : reached loanSigner loanSetup = after loanSigner loanSetup := rfl

/-- The early export raises. -/
theorem reached_early : reached loanSigner (loanSetup ++ [exportLoan]) = after loanSigner loanSetup := by
  have hledger : (after loanSigner loanSetup).db.ledger = [] := by rw [after_loanSetup]; rfl
  have hempty : Inv loanSigner (after loanSigner loanSetup).db [] := ⟨hledger, by simp, hledger ▸ Chained.nil⟩
  rw [reached_concat, reached_loanSetup]
  rcases act_exportProof hempty loanEnv "loan_1" with ⟨-, he⟩ | ⟨hne, -⟩
  · rw [exportLoan, he]
  · exact absurd (by rw [rows, hledger]; rfl) hne

theorem rows_moveLoan : rows (reached loanSigner (loanSetup ++ [exportLoan, moveLoan])) "loan_1" ≠ [] := by
  have hinv : FacInv loanSigner loanSetup (after loanSigner loanSetup) := FacInv.run loanSetup_good
  have hsplit : loanSetup ++ [exportLoan, moveLoan] = (loanSetup ++ [exportLoan]) ++ [moveLoan] := by simp
  rw [hsplit, reached_concat, reached_early]
  refine loanStep_after hinv rfl ?_ ?_
  · rw [after_loanSetup]
  · rw [after_loanSetup]
    rfl

/-- The second export returns a package, and the transition after it is refused. -/
theorem export_final_loan :
    ∃ package, (act loanSigner (reached loanSigner (loanSetup ++ [exportLoan, moveLoan])) exportLoan).1 = .package package ∧
      (∃ cs m, verifyPackage loanVerifier package = .ok (true, cs, m)) ∧
      Final loanSigner (reached loanSigner ((loanSetup ++ [exportLoan, moveLoan]) ++ exportLoan :: [moveLoan])) "loan_1"
        (rows (reached loanSigner (loanSetup ++ [exportLoan, moveLoan])) "loan_1") package := by
  have hkept : Kept loanSigner (reached loanSigner (loanSetup ++ [exportLoan, moveLoan])) := Kept.fresh.final _
  obtain ⟨acc, hinv⟩ := hkept.proofs
  have hact := congrArg Prod.fst (@act_package loanSigner _ acc hinv loanEnv "loan_1" rfl rows_moveLoan)
  obtain ⟨hverified, hfinal⟩ := (export_final loanSigner (loanSetup ++ [exportLoan, moveLoan]) loanEnv "loan_1").2 _ hact
  exact ⟨_, hact, hverified loanVerifier loanSigner_honest, hfinal [moveLoan]⟩

/-! ### Every instance follows its protocol -/

/-- The texts that `compile` hashes in a run. -/
def specTexts (ops : List Op) : Set String := {t | ∃ now spec wf, .compile now spec wf ∈ ops ∧ t = dumps (.obj spec)}

/-- The run is one of the facade with the engine's export, once the exports without rows
are left out. -/
structure Follows (signer : Signer) (ops done : List Op) : Prop where
  state : reached signer ops = after signer done
  inv : FacInv signer done (after signer done)
  created : ∀ before i rest, done = before ++ .createInstance i :: rest →
    ∃ before' rest', ops = before' ++ .createInstance i :: rest' ∧ reached signer before' = after signer before
  protocols : ∀ h spec, (after signer done).protocols.lookup h = some spec →
    h = sha256Hex (dumps (.obj spec)) ∧ dumps (.obj spec) ∈ specTexts ops

/-- The protocols after one call. -/
theorem step_protocols (signer : Signer) (s : Engine) (op : Op) :
    (step signer s op).2.protocols = s.protocols ∨ ∃ now spec wf, op = .compile now spec wf ∧
      (step signer s op).2.protocols = (sha256Hex (dumps (.obj spec)), spec) :: s.protocols := by
  cases op with
  | compile now spec wf => exact .inr ⟨now, spec, wf, rfl, rfl⟩
  | createInstance i =>
    rcases createInstance_cases signer s i with ⟨e, he⟩ | ⟨hash, state, -, -, -, he⟩
    · rw [he]
      exact .inl rfl
    · rw [he]
      exact .inl rfl
  | transition env c =>
    rcases transition_records signer s env c with ⟨e, he⟩ | ⟨a, p, hash, v, -, -, -, he⟩
    · rw [step, he]
      exact .inl rfl
    · rw [step, he]
      exact .inl rfl
  | exportProof env i =>
    rcases export_cases signer s env i with ⟨e, he⟩ | ⟨-, j, he⟩
    · rw [he]
      exact .inl rfl
    · rw [he]
      exact .inl rfl
  | _ => exact .inl rfl

theorem specTexts_mono {ops : List Op} (op : Op) : specTexts ops ⊆ specTexts (ops ++ [op]) := by
  rintro t ⟨now, spec, wf, hmem, ht⟩
  exact ⟨now, spec, wf, List.mem_append_left _ hmem, ht⟩

namespace Follows

variable {ops done : List Op}

/-- A call that both runs make. -/
theorem both (h : Follows signer ops done) {op : Op} (hsha : CollisionFree (specTexts (ops ++ [op])))
    (hrows : ∀ env i, op = .exportProof env i → rows (reached signer ops) i ≠ [])
    (hact : act signer (reached signer ops) op = step signer (reached signer ops) op) :
    Follows signer (ops ++ [op]) (done ++ [op]) := by
  have hok : Ok (after signer done) op := by
    cases op with
    | compile now spec wf =>
      intro spec' hlook
      obtain ⟨hh, hmem⟩ := h.protocols _ _ hlook
      exact hsha (specTexts_mono _ hmem) ⟨now, spec, wf, by simp, rfl⟩ hh.symm
    | exportProof env i => exact fun _ => h.state ▸ hrows env i rfl
    | _ => trivial
  have hafter : after signer (done ++ [op]) = (step signer (after signer done) op).2 := by
    rw [after, after, final_concat]
  refine ⟨?_, ?_, ?_, ?_⟩
  · rw [reached_concat, hact, h.state, hafter]
  · rw [hafter]
    exact h.inv.step rfl hok
  · intro before i rest heq
    rcases List.eq_nil_or_concat rest with rfl | ⟨rest', last, rfl⟩
    · obtain ⟨rfl, hop⟩ := List.append_inj' heq rfl
      obtain rfl := List.cons.inj hop |>.1
      exact ⟨ops, [], rfl, h.state⟩
    · rw [List.concat_eq_append, ← List.cons_append, ← List.append_assoc] at heq
      obtain ⟨hdone, -⟩ := List.append_inj' heq rfl
      obtain ⟨before', rest'', hops, hstate⟩ := h.created before i rest' hdone
      exact ⟨before', rest'' ++ [op], by rw [hops]; simp, hstate⟩
  · intro hash spec hlook
    rw [hafter] at hlook
    rcases step_protocols signer (after signer done) op with hp | ⟨now, spec', wf, rfl, hp⟩
    · rw [hp] at hlook
      obtain ⟨hh, hmem⟩ := h.protocols hash spec hlook
      exact ⟨hh, specTexts_mono _ hmem⟩
    · rw [hp, List.lookup_cons] at hlook
      split at hlook
      · rename_i hkey
        obtain rfl := Option.some.inj hlook
        exact ⟨by simpa using hkey, now, spec', wf, by simp, rfl⟩
      · obtain ⟨hh, hmem⟩ := h.protocols hash spec hlook
        exact ⟨hh, specTexts_mono _ hmem⟩

/-- An export without rows, which changes nothing. -/
theorem skip (h : Follows signer ops done) {env : CallEnv} {i : String}
    (hact : (act signer (reached signer ops) (.exportProof env i)).2 = reached signer ops) :
    Follows signer (ops ++ [.exportProof env i]) done := by
  refine ⟨by rw [reached_concat, hact, h.state], h.inv, fun before j rest heq => ?_, fun hash spec hlook => ?_⟩
  · obtain ⟨before', rest', hops, hstate⟩ := h.created before j rest heq
    exact ⟨before', rest' ++ [.exportProof env i], by rw [hops]; simp, hstate⟩
  · obtain ⟨hh, hmem⟩ := h.protocols hash spec hlook
    exact ⟨hh, specTexts_mono _ hmem⟩

end Follows

/-- **Every run follows one** with the engine's export. -/
theorem exists_follows (signer : Signer) {ops : List Op} (hsha : CollisionFree (specTexts ops)) :
    ∃ done, Follows signer ops done := by
  induction ops using List.reverseRecOn with
  | nil =>
    refine ⟨[], rfl, FacInv.fresh, fun before i rest heq => ?_, fun h spec hlook => ?_⟩
    · simp at heq
    · cases hlook
  | append_singleton ops op ih =>
    obtain ⟨done, hdone⟩ := ih (hsha.mono (specTexts_mono op))
    have hkept : Kept signer (reached signer ops) := Kept.fresh.final ops
    rcases act_cases hkept op with ⟨hrows, he⟩ | ⟨env, i, rfl, -, he⟩
    · exact ⟨done ++ [op], hdone.both hsha hrows he⟩
    · exact ⟨done, hdone.skip (congrArg Prod.snd he)⟩

/-- The instance was created, among the calls of the run, while `spec` was active. -/
def CreatedWith (signer : Signer) (ops : List Op) (i : String) (spec : List (String × Json)) : Prop :=
  ∃ before rest h state, ops = before ++ .createInstance i :: rest ∧ (reached signer before).active = some h ∧
    (reached signer before).protocols.lookup h = some spec ∧
    (act signer (reached signer before) (.createInstance i)).1 = .created i state

/-- **Every instance follows its protocol.**  After any calls of one facade on a fresh
database: the rows of an instance are a path of the protocol that was active when it
was created, which ends in the state in memory; no other instance has rows; and a
call that raises changes nothing. -/
theorem facade_conformance (signer : Signer) (ops : List Op) (hsha : CollisionFree (specTexts ops)) :
    (∀ i state h, (reached signer ops).instances.lookup i = some (state, h) →
      ∃ spec, CreatedWith signer ops i spec ∧ Conforms spec (rows (reached signer ops) i) state) ∧
    (∀ r ∈ (reached signer ops).db.ledger, ((reached signer ops).instances.lookup r.instanceId).isSome = true) ∧
    ∀ op e, (act signer (reached signer ops) op).1 = .raised e → (act signer (reached signer ops) op).2 = reached signer ops := by
  obtain ⟨done, hdone⟩ := exists_follows signer hsha
  refine ⟨fun i state h hlook => ?_, fun r hr => ?_, fun op e hraised => ?_⟩
  · rw [hdone.state] at hlook ⊢
    obtain ⟨spec, spec', hc⟩ := hdone.inv.known i state h hlook
    obtain ⟨before, rest, hash, st, hsplit, hactive, hspec, hcreated⟩ := hc.created
    obtain ⟨before', rest', hops, hstate⟩ := hdone.created before i rest hsplit
    refine ⟨spec, ⟨before', rest', hash, st, hops, ?_, ?_, ?_⟩, hc.conforms⟩
    · rw [hstate]
      exact hactive
    · rw [hstate]
      exact hspec
    · rw [hstate]
      exact hcreated
  · rw [hdone.state] at hr ⊢
    by_contra hnone
    have hrows := hdone.inv.unknown r.instanceId (Option.not_isSome_iff_eq_none.1 hnone)
    have hmem : r ∈ rows (after signer done) r.instanceId := mem_rowsOf.2 ⟨hr, hdone.inv.oneTenant r hr, rfl⟩
    rw [hrows] at hmem
    cases hmem
  · have hkept : Kept signer (reached signer ops) := Kept.fresh.final ops
    rcases act_cases hkept op with ⟨-, he⟩ | ⟨env, i, rfl, -, he⟩
    · rw [he] at hraised ⊢
      cases op with
      | createInstance i =>
        rcases createInstance_cases signer (reached signer ops) i with ⟨e', he'⟩ | ⟨_, _, -, -, -, he'⟩
        · rw [he']
        · rw [he'] at hraised
          cases hraised
      | transition env c =>
        rw [step] at hraised ⊢
        rcases transition_records signer (reached signer ops) env c with ⟨e', he'⟩ | ⟨_, _, _, _, -, -, -, he'⟩
        · rw [he']
        · rw [he'] at hraised
          cases hraised
      | exportProof env i =>
        rcases export_cases signer (reached signer ops) env i with ⟨e', he'⟩ | ⟨-, _, he'⟩
        · rw [he']
        · rw [he'] at hraised
          cases hraised
      | _ => cases hraised
    · rw [he]

/-- The loan is on its path, though it was exported before. -/
theorem facade_conformance_loan :
    ∃ spec state, CreatedWith loanSigner (loanSetup ++ [exportLoan, moveLoan]) "loan_1" spec ∧
      Conforms spec (rows (reached loanSigner (loanSetup ++ [exportLoan, moveLoan])) "loan_1") state ∧
      rows (reached loanSigner (loanSetup ++ [exportLoan, moveLoan])) "loan_1" ≠ [] := by
  have hsha : CollisionFree (specTexts (loanSetup ++ [exportLoan, moveLoan])) := by
    refine (Set.injOn_singleton _ (dumps (.obj loanSpec))).mono ?_
    rintro t ⟨now, spec, wf, hmem, rfl⟩
    simp only [loanSetup, exportLoan, moveLoan, List.mem_append, List.mem_cons, List.not_mem_nil, reduceCtorEq, or_false,
      false_or, Op.compile.injEq] at hmem
    rw [hmem.2]
    exact Set.mem_singleton _
  obtain ⟨hpath, hknown, -⟩ := facade_conformance loanSigner (loanSetup ++ [exportLoan, moveLoan]) hsha
  obtain ⟨r, hr⟩ := List.exists_mem_of_ne_nil _ rows_moveLoan
  obtain ⟨hmem, -, hi⟩ := mem_rowsOf.1 hr
  obtain ⟨⟨state, hash⟩, hlook⟩ := Option.isSome_iff_exists.1 (hknown r hmem)
  rw [hi] at hlook
  obtain ⟨spec, hcreated, hconforms⟩ := hpath "loan_1" state hash hlook
  exact ⟨spec, state, hcreated, hconforms, rows_moveLoan⟩

end Facade
end ProvableAi
