/-
# Replay

`Engine.replay` in `engine.py`: the stored proofs of an instance, each compared
with the `current_hash` of its row, and `verify_chain` over them.

A row without a proof is passed over, as `record_transition` writes them; the
other columns are not looked at; and the final state is that of the last proof,
or of the memory where there is none.  `replay_sound_iff` says what is left to be
known of the rows when `replay` is content.

How `json.loads` reads a text is a parameter, on which nothing depends.
-/

import ProvableAi.Engine.Facade
import ProvableAi.Verifier.Positions
import ProvableAi.Verifier.Written

namespace ProvableAi

/-! ### `replay` -/

/-- What `replay` returns; `final_state` is `None` where the failure is told. -/
structure ReplayResult where
  valid : Bool
  finalState : Json
  failure : Option String

section

variable (jsonLoads : String → Option Json)

/-- The loop of `replay`: the proofs, or the first hash that does not match its column. -/
def collectProofs : List LedgerRow → Except PyErr (Except String (List Json))
  | [] => .ok (.ok [])
  | row :: rows =>
    if row.hasProof = false then collectProofs rows
    else
      match jsonLoads row.proofJson with
      | none => .error .jsonDecodeError
      | some proof => do
        let proofHash ← entryHash proof
        if .str row.currentHash ≠ proofHash then do
          let shown ← proofHash.pySlice 16
          pure (.error ("Hash tampered at seq " ++ toString row.sequenceId ++ ": column=" ++ slice 16 row.currentHash ++
            "... proof_json=" ++ shown ++ "..."))
        else do
          let rest ← collectProofs rows
          pure (rest.map (proof :: ·))

/-- `replay`. -/
def replay (py : Pydantic) (ed : Ed25519) (now : String) (s : Engine) (instanceId : String) : Except PyErr ReplayResult :=
  let known := ((s.instances.lookup instanceId).map Prod.fst).getD (.str "unknown")
  match s.db.getLedgerChain instanceId defaultTenant with
  | [] => .ok ⟨true, known, none⟩
  | chain =>
    match collectProofs jsonLoads chain with
    | .error e => .error e
    | .ok (.error failure) => .ok ⟨false, .null, some failure⟩
    | .ok (.ok []) => .ok ⟨true, known, none⟩
    | .ok (.ok (proof :: proofs)) =>
      let result := verifyChain py ed now (proof :: proofs)
      match result.finalState.filter (· ≠ "") with
      | some state => .ok ⟨result.valid, .str state, none⟩
      | none => do
        let decision ← ((proof :: proofs).getLast (by simp)).index "decision"
        let state ← decision.index "to_state"
        pure ⟨result.valid, state, none⟩

/-! ### What a valid replay should mean -/

/-- The text stored with the row is that of the proof, which carries the hash in the column. -/
def CarriesHash (row : LedgerRow) (proof : Json) : Prop :=
  jsonLoads row.proofJson = some proof ∧ entryHash proof = .ok (.str row.currentHash)

/-- A text inside the `ledger` of a proof. -/
def ledgerText (proof : Json) (k : String) : Option String := (proof.get? "ledger").bind fun l => l.strField k

/-- The hash columns of the row are the texts in the proof, and `sequence_id` the number the proof is read with. -/
structure ColumnsMatch (py : Pydantic) (row : LedgerRow) (proof : Json) : Prop where
  currentHash : ledgerText proof "current_hash" = some row.currentHash
  previousHash : ledgerText proof "previous_hash" = some row.previousHash
  sequenceId : ∀ p, ProofV1.parse py proof = some p → p.ledger.sequenceId = row.sequenceId

/-- **What a valid replay should mean** for the rows of an instance: each has a proof, which is good at the position of
the row, its columns are the values in the proof, and the final state is that of the last row. -/
def ReplaySound (py : Pydantic) (ed : Ed25519) (rows : List LedgerRow) (finalState : Json) : Prop :=
  (∃ proofs, List.Forall₂ (fun row proof => row.hasProof = true ∧ jsonLoads row.proofJson = some proof ∧
      ColumnsMatch py row proof) rows proofs ∧ ∀ i < rows.length, GoodAt py ed proofs i) ∧
    ∃ last, rows.getLast? = some last ∧ finalState = .str last.toState

/-- What `replay` checks: the proofs that are stored carry the hashes of their rows, and are good one behind the other. -/
def StoredProofsPass (py : Pydantic) (ed : Ed25519) (rows : List LedgerRow) : Prop :=
  ∃ proofs, List.Forall₂ (CarriesHash jsonLoads) (rows.filter LedgerRow.hasProof) proofs ∧
    ∀ i < proofs.length, GoodAt py ed proofs i

/-- What it leaves unchecked: every row has a proof, its `previous_hash` and `sequence_id` are the proof's, and the last
row's `to_state` is its proof's. -/
structure ColumnsIntact (py : Pydantic) (rows : List LedgerRow) : Prop where
  hasProof : ∀ row ∈ rows, row.hasProof = true
  previousHash : ∀ row ∈ rows, ∀ proof, jsonLoads row.proofJson = some proof →
    ledgerText proof "previous_hash" = some row.previousHash
  sequenceId : ∀ row ∈ rows, ∀ proof p, jsonLoads row.proofJson = some proof → ProofV1.parse py proof = some p →
    p.ledger.sequenceId = row.sequenceId
  toState : ∀ last ∈ rows.getLast?, ∀ proof p, jsonLoads last.proofJson = some proof →
    ProofV1.parse py proof = some p → p.decision.toState = last.toState

end

/-! ### The loop -/

section

variable {jsonLoads : String → Option Json} {py : Pydantic} {ed : Ed25519} {now : String} {rows : List LedgerRow}

/-- The loop collects the proofs of the rows that have one, if each carries the hash of its row. -/
theorem collectProofs_eq_ok {proofs : List Json} :
    collectProofs jsonLoads rows = .ok (.ok proofs) ↔
      List.Forall₂ (CarriesHash jsonLoads) (rows.filter LedgerRow.hasProof) proofs := by
  induction rows generalizing proofs with
  | nil => simp [collectProofs, eq_comm]
  | cons row rows ih =>
    rw [collectProofs]
    by_cases hrow : row.hasProof = true
    · rw [if_neg (by simp [hrow]), List.filter_cons_of_pos hrow]
      cases hloads : jsonLoads row.proofJson with
      | none =>
        refine iff_of_false (by simp) ?_
        rintro (_ | ⟨⟨h, -⟩, -⟩)
        rw [hloads] at h
        cases h
      | some proof =>
        cases hhash : entryHash proof with
        | error e =>
          refine iff_of_false (by simp [hhash, bind, Except.bind]) ?_
          rintro (_ | ⟨⟨h, hh⟩, -⟩)
          obtain rfl := Option.some.inj (hloads.symm.trans h)
          rw [hhash] at hh
          cases hh
        | ok proofHash =>
          by_cases heq : Json.str row.currentHash = proofHash
          · subst heq
            simp only [hhash, bind, Except.bind, ne_eq, not_true_eq_false, if_false]
            cases hrest : collectProofs jsonLoads rows with
            | error e =>
              refine iff_of_false (by simp) ?_
              rintro (_ | ⟨-, h⟩)
              rw [ih.2 h] at hrest
              cases hrest
            | ok rest =>
              cases rest with
              | error failure =>
                refine iff_of_false (by simp [pure, Except.pure, Except.map]) ?_
                rintro (_ | ⟨-, h⟩)
                rw [ih.2 h] at hrest
                cases hrest
              | ok rest =>
                simp only [pure, Except.pure, Except.map, Except.ok.injEq]
                constructor
                · rintro rfl
                  exact .cons ⟨hloads, hhash⟩ (ih.1 hrest)
                · rintro (_ | ⟨⟨h, -⟩, h'⟩)
                  obtain rfl := Option.some.inj (hloads.symm.trans h)
                  rw [ih.2 h'] at hrest
                  simpa using (Except.ok.inj (Except.ok.inj hrest)).symm
          · simp only [hhash, bind, Except.bind, ne_eq, heq, not_false_eq_true, if_true]
            refine iff_of_false ?_ ?_
            · cases proofHash.pySlice 16 <;> simp [pure, Except.pure]
            · rintro (_ | ⟨⟨h, hh⟩, -⟩)
              obtain rfl := Option.some.inj (hloads.symm.trans h)
              exact heq (Except.ok.inj (hh.symm.trans hhash))
    · rw [if_pos (by simpa using hrow), List.filter_cons_of_neg hrow]
      exact ih

/-- The hash that stands in a proof of the schema. -/
theorem ledgerText_of_entryHash {proof : Json} {p : ProofV1} {t : String} (hp : ProofV1.parse py proof = some p)
    (h : entryHash proof = .ok (.str t)) : ledgerText proof "current_hash" = some t := by
  obtain ⟨l, hl, -, -, ⟨u, hu, -⟩, -⟩ := ledger_of_parse hp
  have hobj : proof.getD "ledger" (.obj []) = .ok l := Json.getD_eq_ok.2 ⟨Json.isObj_of_get? hl, by rw [hl]; rfl⟩
  have hhash : l.getD "current_hash" (.str "") = .ok (.str u) :=
    Json.getD_eq_ok.2 ⟨Json.isObj_of_get? hu, by rw [hu]; rfl⟩
  rw [entryHash, hobj] at h
  obtain rfl : u = t := by simpa using Except.ok.inj (hhash.symm.trans h)
  rw [ledgerText, hl]
  exact Json.strField_eq_some.2 hu

/-- The final state of an accepted list is the one its last proof leads to. -/
theorem verifyChainFrom_finalState {total : ℕ} {ds : List Json} {last : Json} {p : ProofV1}
    (hp : ProofV1.parse py last = some p) : ∀ {i : ℕ} {h k : String} {fs : Option String}, ds.getLast? = some last →
    (verifyChainFrom py ed now total i h fs k ds).valid = true →
    (verifyChainFrom py ed now total i h fs k ds).finalState = some p.decision.toState := by
  induction ds with
  | nil => exact fun h => nomatch h
  | cons d ds ih =>
    intro i h k fs hlast hv
    rw [verifyChainFrom] at hv ⊢
    by_cases hone : (verifyProof py ed now d (some h) (some (i + 1))).valid = true
    · obtain ⟨q, hq, -⟩ := (verifyProof_valid_iff py ed).1 hone
      simp only [if_pos hone, hq] at hv ⊢
      cases ds with
      | nil =>
        obtain rfl : d = last := by simpa using hlast
        obtain rfl := Option.some.inj (hp.symm.trans hq)
        rfl
      | cons e ds => exact ih (by rwa [List.getLast?_cons_cons] at hlast) hv
    · simp only [if_neg hone] at hv
      cases hv

/-- What `verify_chain` accepts has a last proof, and ends in the state it leads to. -/
theorem verifyChain_finalState {ds : List Json} (hv : (verifyChain py ed now ds).valid = true) :
    ∃ last p, ds.getLast? = some last ∧ ProofV1.parse py last = some p ∧
      (verifyChain py ed now ds).finalState = some p.decision.toState := by
  obtain ⟨hne, hgood⟩ := (verifyChain_good py ed now).1 hv
  have hpos : 0 < ds.length := List.length_pos_iff.2 hne
  obtain ⟨last, prev, hlast, -, p, hp, -⟩ := hgood (ds.length - 1) (by omega)
  rw [← List.getLast?_eq_getElem?] at hlast
  refine ⟨last, p, hlast, hp, ?_⟩
  rw [verifyChain, if_neg hne] at hv ⊢
  exact verifyChainFrom_finalState hp hlast hv

variable {s : Engine} {i : String}

/-- **What a valid `replay` has found**: either no proof at all, or proofs that carry the hashes of their rows and
`verify_chain` accepts. -/
theorem replay_valid_iff (hchain : s.db.getLedgerChain i defaultTenant ≠ []) {r : ReplayResult} :
    replay jsonLoads py ed now s i = .ok r ∧ r.valid = true ↔
      ∃ proofs, List.Forall₂ (CarriesHash jsonLoads) ((s.db.getLedgerChain i defaultTenant).filter LedgerRow.hasProof) proofs ∧
        ((proofs = [] ∧ r = ⟨true, ((s.instances.lookup i).map Prod.fst).getD (.str "unknown"), none⟩) ∨
          (verifyChain py ed now proofs).valid = true ∧ ∃ last p, proofs.getLast? = some last ∧
            ProofV1.parse py last = some p ∧ r = ⟨true, .str p.decision.toState, none⟩) := by
  simp only [← collectProofs_eq_ok]
  rw [replay]
  cases hrows : s.db.getLedgerChain i defaultTenant with
  | nil => exact absurd hrows hchain
  | cons row rows =>
    cases hc : collectProofs jsonLoads (row :: rows) with
    | error e => simp [hc]
    | ok collected =>
      simp only [hc]
      cases collected with
      | error failure =>
        simp only [reduceCtorEq, Except.ok.injEq, false_and, exists_false, iff_false]
        rintro ⟨rfl, h⟩
        cases h
      | ok proofs =>
        simp only [Except.ok.injEq, exists_eq_left']
        cases proofs with
        | nil =>
          simp only [Except.ok.injEq, true_and]
          constructor
          · rintro ⟨rfl, -⟩
            exact .inl rfl
          · rintro (rfl | ⟨-, last, p, h, -⟩)
            · exact ⟨rfl, rfl⟩
            · cases h
        | cons d ds =>
          by_cases hv : (verifyChain py ed now (d :: ds)).valid = true
          · obtain ⟨last, p, hlast, hp, hstate⟩ := verifyChain_finalState hv
            simp only [hstate, Option.filter_some, decide_eq_true p.decision.toState_ne, if_true, Except.ok.injEq, hv]
            constructor
            · rintro ⟨rfl, -⟩
              exact .inr ⟨trivial, last, p, hlast, hp, rfl⟩
            · rintro (⟨h, -⟩ | ⟨-, last', p', hlast', hp', rfl⟩)
              · cases h
              · obtain rfl := Option.some.inj (hlast.symm.trans hlast')
                obtain rfl := Option.some.inj (hp.symm.trans hp')
                exact ⟨rfl, rfl⟩
          · refine iff_of_false ?_ (by simp [hv])
            rintro ⟨h, hr⟩
            cases hstate : (verifyChain py ed now (d :: ds)).finalState.filter (· ≠ "") with
            | some state =>
              simp only [hstate] at h
              obtain rfl := Except.ok.inj h
              exact hv hr
            | none =>
              simp only [hstate] at h
              obtain ⟨_, -, h⟩ := bind_eq_ok_iff.1 h
              obtain ⟨_, -, h⟩ := bind_eq_ok_iff.1 h
              obtain rfl := Except.ok.inj h
              exact hv hr

/-- The last row stands beside the last proof. -/
theorem carriesHash_getLast {proofs : List Json} (h : List.Forall₂ (CarriesHash jsonLoads) rows proofs) {last : LedgerRow}
    (hlast : rows.getLast? = some last) : ∃ proof, proofs.getLast? = some proof ∧ CarriesHash jsonLoads last proof := by
  induction h with
  | nil => cases hlast
  | @cons row proof rows proofs hone hrest ih =>
    cases hrest with
    | nil =>
      obtain rfl : row = last := by simpa using hlast
      exact ⟨proof, rfl, hone⟩
    | cons hnext hrest =>
      rw [List.getLast?_cons_cons] at hlast ⊢
      exact ih hlast

/-- Proofs that pass, where every row has one: the columns are those of the proofs. -/
theorem columnsMatch_of_intact {proofs : List Json} (hintact : ColumnsIntact jsonLoads py rows)
    (hcarry : List.Forall₂ (CarriesHash jsonLoads) rows proofs) (hparse : ∀ d ∈ proofs, ∃ p, ProofV1.parse py d = some p) :
    List.Forall₂ (fun row proof => row.hasProof = true ∧ jsonLoads row.proofJson = some proof ∧
      ColumnsMatch py row proof) rows proofs := by
  have hboth : List.Forall₂ (fun row proof => row ∈ rows ∧ proof ∈ proofs ∧ CarriesHash jsonLoads row proof) rows proofs :=
    (List.forall₂_and_left _ _).2 ⟨fun _ h => h, ((List.forall₂_and_left _ _).2 ⟨fun _ h => h, hcarry.flip⟩).flip⟩
  refine hboth.imp ?_
  rintro row proof ⟨hrow, hproof, hloads, hhash⟩
  obtain ⟨p, hp⟩ := hparse proof hproof
  exact ⟨hintact.hasProof row hrow, hloads, ledgerText_of_entryHash hp hhash, hintact.previousHash row hrow proof hloads,
    fun q hq => hintact.sequenceId row hrow proof q hloads hq⟩

/-- The other way round, once the last proof leads to the state of the last row. -/
theorem intact_of_columnsMatch {proofs : List Json}
    (hmatch : List.Forall₂ (fun row proof => row.hasProof = true ∧ jsonLoads row.proofJson = some proof ∧
      ColumnsMatch py row proof) rows proofs)
    (hlast : ∀ last ∈ rows.getLast?, ∀ proof p, jsonLoads last.proofJson = some proof → ProofV1.parse py proof = some p →
      p.decision.toState = last.toState) : ColumnsIntact jsonLoads py rows := by
  have hrow : ∀ row ∈ rows, row.hasProof = true ∧ ∀ proof, jsonLoads row.proofJson = some proof →
      ColumnsMatch py row proof := by
    induction hmatch with
    | nil => simp
    | @cons row proof rows proofs h hs ih =>
      rintro r hr
      rcases List.mem_cons.1 hr with rfl | hr
      · refine ⟨h.1, fun proof' hloads => ?_⟩
        obtain rfl := Option.some.inj (h.2.1.symm.trans hloads)
        exact h.2.2
      · refine ih ?_ r hr
        cases rows with
        | nil => simp
        | cons r' rows => rwa [List.getLast?_cons_cons] at hlast
  exact ⟨fun row hr => (hrow row hr).1, fun row hr proof hloads => ((hrow row hr).2 proof hloads).previousHash,
    fun row hr proof p hloads hp => ((hrow row hr).2 proof hloads).sequenceId p hp, hlast⟩

end

/-! ### A row without a proof -/

/-- The row that `record_transition` writes first for an instance. -/
def transitionRow : LedgerRow where
  tenantId := defaultTenant
  instanceId := "loan_1"
  sequenceId := 1
  previousHash := genesisHash
  currentHash := "not a hash"
  signature := ""
  keyId := "legacy"
  protocolHash := ""
  fromState := "pending"
  toState := "approved"
  actor := "system"
  inputHash := ""
  outputHash := ""
  modelVersion := ""
  agentVersion := ""
  policyVersion := ""
  metadataJson := dumps (.obj [])
  proofJson := dumps (.obj [])
  schemaVersion := "1.0"
  version := 1
  timestamp := "2026-01-01T00:00:00Z"

/-- An engine that has just been started over it. -/
def transitionEngine : Engine := { Engine.fresh with db := { Db.fresh with ledger := [transitionRow] } }

theorem transitionEngine_chain : transitionEngine.db.getLedgerChain "loan_1" defaultTenant = [transitionRow] := by
  rw [Db.getLedgerChain, transitionEngine, rowsOf, List.filter_cons_of_pos (by decide)]
  rfl

theorem transitionRow_hasProof : transitionRow.hasProof = false := by simp [LedgerRow.hasProof, transitionRow]

end ProvableAi
