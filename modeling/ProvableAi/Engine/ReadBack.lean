/-
# Reading proofs back

`get_proof` and `get_chain` of `GovernanceEngine`.  Both look for the key `proof` in
what the storage returns.  `get_ledger_entry` adds it, the stored proof parsed;
`get_ledger_chain` returns the columns of the table, and there is no column of that
name.  So `get_proof` returns what was recorded, and `get_chain` of any instance
returns no proofs (`read_back`).
-/

import ProvableAi.Engine.Runs

namespace ProvableAi

/-- `dict(row)`, but for the `id`. -/
def LedgerRow.dict (r : LedgerRow) : List (String × Json) :=
  [("tenant_id", .str r.tenantId), ("instance_id", .str r.instanceId), ("sequence_id", .int r.sequenceId),
    ("previous_hash", .str r.previousHash), ("current_hash", .str r.currentHash), ("signature", .str r.signature),
    ("key_id", .str r.keyId), ("protocol_hash", .str r.protocolHash), ("from_state", .str r.fromState),
    ("to_state", .str r.toState), ("actor", .str r.actor), ("input_hash", .str r.inputHash),
    ("output_hash", .str r.outputHash), ("model_version", .str r.modelVersion), ("agent_version", .str r.agentVersion),
    ("policy_version", .str r.policyVersion), ("metadata_json", .str r.metadataJson), ("proof_json", .str r.proofJson),
    ("schema_version", .str r.schemaVersion), ("version", .int r.version), ("timestamp", .str r.timestamp)]

/-- What `get_ledger_entry` returns: the row, with the proof where it can be parsed. -/
def LedgerRow.entryDict (r : LedgerRow) : List (String × Json) :=
  match if r.hasProof then loads r.proofJson else none with
  | some proof => r.dict ++ [("proof", proof)]
  | none => r.dict

/-- `entry["proof"]`, if `entry.get("proof") and isinstance(entry["proof"], dict)`: an empty
dict is false. -/
def proofOf (entry : List (String × Json)) : Option Json :=
  match entry.lookup "proof" with
  | some (.obj (kv :: kvs)) => some (.obj (kv :: kvs))
  | _ => none

/-- `get_proof`. -/
def Engine.getProof (py : Pydantic) (s : Engine) (instanceId : String) (sequenceId : Option ℤ) :
    Except PyErr (Option ProofV1) :=
  match (s.db.getLedgerEntry instanceId sequenceId defaultTenant).bind fun r => proofOf r.entryDict with
  | none => .ok none
  | some j =>
    match ProofV1.parse py j with
    | some p => .ok (some p)
    | none => .error .validationError

/-- `get_chain`: what pydantic refuses is left out. -/
def Engine.getChain (py : Pydantic) (s : Engine) (instanceId : String) : List ProofV1 :=
  (s.db.getLedgerChain instanceId defaultTenant).filterMap fun r => (proofOf r.dict).bind (ProofV1.parse py)

/-! ### The two methods on recorded proofs -/

theorem dict_lookup (r : LedgerRow) : r.dict.lookup "proof" = none := rfl

/-- The entry of a recorded proof carries its document. -/
theorem proofOf_entryDict {p : ProofV1} (h : p.dump.wf = true) : proofOf p.row.entryDict = some p.document := by
  have hlook : p.row.entryDict.lookup "proof" = some p.document := by
    rw [LedgerRow.entryDict, if_pos (p.hasProof_row h), p.loads_row h]
    simp only
    rw [List.lookup_append, dict_lookup]
    rfl
  -- the document has members
  have htype : p.document.get? "type" = some (.str proofVersion) := by
    rw [ProofV1.document, Json.get?_canon h]
    rfl
  rw [proofOf, hlook]
  cases hdoc : p.document with
  | obj kvs =>
    cases kvs with
    | nil =>
      rw [hdoc] at htype
      cases htype
    | cons kv kvs => rfl
  | _ =>
    rw [hdoc] at htype
    cases htype

/-- The proof that is asked for: the one with the number, or the last one. -/
def askedProof (ps : List ProofV1) : Option ℤ → Option ProofV1
  | some n => ps.find? fun p => p.ledger.sequenceId = n
  | none => ps.getLast?

theorem askedProof_mem {ps : List ProofV1} {n : Option ℤ} {p : ProofV1} (h : askedProof ps n = some p) : p ∈ ps := by
  cases n with
  | some n => exact List.mem_of_find?_eq_some h
  | none => exact List.mem_of_getLast? h

/-- The storage finds its row. -/
theorem Inv.getLedgerEntry_eq {signer : Signer} {db : Db} {acc : List (DecisionArgs × ProofV1)} (h : Inv signer db acc)
    (i : String) (n : Option ℤ) : db.getLedgerEntry i n defaultTenant =
      (askedProof ((onInstance i acc).map Prod.snd) n).map ProofV1.row := by
  cases n with
  | some n =>
    rw [Db.getLedgerEntry, h.rowsOf_eq, List.find?_map]
    rfl
  | none =>
    rw [Db.getLedgerEntry, lastRow_eq h.chained, h.rowsOf_eq, List.getLast?_map]
    rfl

/-- **What the engine reads back.**  After any calls of one engine on a fresh database,
`get_proof` returns the proof that was recorded under the number, by default the last
one, up to the order of keys, and `None` where there is none; `get_chain` returns no
proofs, whatever was recorded. -/
theorem read_back (signer : Signer) (py : Pydantic) (ops : List Op) (i : String) :
    (∀ n, (Engine.fresh.run signer ops).1.getProof py i n = .ok
      ((askedProof ((onInstance i (recorded (Engine.fresh.run signer ops).2)).map Prod.snd) n).map ProofV1.canon)) ∧
    (Engine.fresh.run signer ops).1.getChain py i = [] := by
  have hinv := inv_run signer ops
  constructor
  · intro n
    rw [Engine.getProof, hinv.getLedgerEntry_eq]
    cases hasked : askedProof ((onInstance i (recorded (Engine.fresh.run signer ops).2)).map Prod.snd) n with
    | none => rfl
    | some p =>
      have hp := hinv.dump_wf i p (askedProof_mem hasked)
      simp only [Option.map_some, Option.bind_some, proofOf_entryDict hp, p.parse_document py hp]
  · rw [Engine.getChain, List.filterMap_eq_nil_iff]
    intro r _
    rw [proofOf, dict_lookup]
    rfl

end ProvableAi
