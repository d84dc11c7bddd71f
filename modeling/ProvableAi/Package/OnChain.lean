/-
# The proofs on one instance

`OnChain` is what the readers of a database rely on: the rows of an instance are
those of proofs in their order, hashed, linked and without repeated keys.  It holds
of every database with the engine's invariant; from it, a number finds its row, an
export is the package of the chain, and the package is accepted.
-/

import ProvableAi.Package.RoundTrip

namespace ProvableAi

open HashChain

/-- The proofs on one instance, in their order. -/
structure OnChain (db : Db) (i : String) (ps : List ProofV1) : Prop where
  rows : rowsOf db.ledger defaultTenant i = ps.map ProofV1.row
  chain : db.getLedgerChain i defaultTenant = ps.map ProofV1.row
  wf : ∀ p ∈ ps, p.dump.wf = true
  hashes : ∀ p ∈ ps, p.ledger.currentHash.text = sha256Hex (dumps p.payload)
  linked : Linked proofReading genesisHash 1 ps

variable {signer : Signer} {ed : Ed25519}

theorem Inv.onChain {db : Db} {acc : List (DecisionArgs × ProofV1)} (h : Inv signer db acc) (i : String) :
    OnChain db i ((onInstance i acc).map Prod.snd) := by
  refine ⟨h.rowsOf_eq i, h.getLedgerChain_eq i, h.dump_wf i, fun p hp => ?_, h.linked i⟩
  obtain ⟨ap, hap, rfl⟩ := List.mem_map.1 hp
  exact (h.built ap (List.mem_filter.1 hap).1).hash_eq

namespace OnChain

variable {db : Db} {i : String} {ps : List ProofV1}

/-- A row of the chain, with its place. -/
theorem place (h : OnChain db i ps) {r : LedgerRow} (hr : r ∈ rowsOf db.ledger defaultTenant i) :
    ∃ (k : ℕ) (q : ProofV1), ps[k]? = some q ∧ q.row = r ∧ q.ledger.sequenceId = 1 + (k : ℤ) := by
  rw [h.rows] at hr
  obtain ⟨q, hq, hrow⟩ := List.mem_map.1 hr
  obtain ⟨k, hk⟩ := List.mem_iff_getElem?.1 hq
  exact ⟨k, q, hk, hrow, h.linked.seq_get hk⟩

/-- The number of a row finds it. -/
theorem getLedgerEntry (h : OnChain db i ps) {k : ℕ} {q : ProofV1} (hk : ps[k]? = some q) :
    db.getLedgerEntry i (some q.ledger.sequenceId) defaultTenant = some q.row := by
  have hmem : q.row ∈ ps.map ProofV1.row := List.mem_map_of_mem (List.mem_of_getElem? hk)
  have hseq : q.ledger.sequenceId = 1 + (k : ℤ) := h.linked.seq_get hk
  rw [Db.getLedgerEntry, h.rows]
  cases hfind : (ps.map ProofV1.row).find? (fun r => r.sequenceId = q.ledger.sequenceId) with
  | none =>
    have hnone := List.find?_eq_none.1 hfind q.row hmem
    exact absurd (decide_eq_true (show q.row.sequenceId = q.ledger.sequenceId from rfl)) hnone
  | some r =>
    obtain ⟨f, hf, rfl⟩ := List.mem_map.1 (List.mem_of_find?_eq_some hfind)
    obtain ⟨m, hm⟩ := List.mem_iff_getElem?.1 hf
    have hfseq : f.ledger.sequenceId = 1 + (m : ℤ) := h.linked.seq_get hm
    have hfound := List.find?_some hfind
    have heq : f.ledger.sequenceId = q.ledger.sequenceId := of_decide_eq_true hfound
    obtain rfl : m = k := by omega
    rw [Option.some.inj (hm.symm.trans hk)]

/-- The package of the chain is accepted. -/
theorem accepted (h : OnChain db i ps) (hs : signer.Honest ed) (hne : ps ≠ []) :
    ∃ cs m, verifyPackage ed (chainPackage signer i ps) = .ok (true, cs, m) := by
  obtain ⟨es, -, hacc⟩ := chainPackage_accepted (hs _) hne h.wf h.hashes h.linked (chainPackage_wf h.wf) rfl
  obtain ⟨cs, m, hv, -, -⟩ := hacc.verifyPackage
  exact ⟨cs, m, hv⟩

theorem signedExport_eq (h : OnChain db i ps) {env : CallEnv} (hf : env.signFault = none) :
    signedExport db signer env i = .ok (chainPackage signer i ps) := by
  have he := exportProof_eq h.chain h.wf signer env
  rw [exportProof, hf] at he
  cases hs : signedExport db signer env i with
  | error e =>
    rw [hs] at he
    cases (Prod.mk.inj he).1
  | ok package =>
    rw [hs] at he
    rw [Except.ok.inj (Prod.mk.inj he).1]

end OnChain

/-- A row is one document's. -/
theorem document_of_row {p q : ProofV1} (hp : p.dump.wf = true) (hq : q.dump.wf = true) (h : q.row = p.row) :
    q.document = p.document := by
  have hl := q.loads_row hq
  rw [h, p.loads_row hp] at hl
  exact (Option.some.inj hl).symm

end ProvableAi
