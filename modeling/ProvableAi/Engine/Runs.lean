/-
# Runs of one engine

A `GovernanceEngine` over a fresh `SQLiteStorage`: approvals, `compile`,
`create_instance`, `record_decision` and `export_proof`, in any order and for
any instances, calls that raise included.  An event of a run is a call, what
it returned or raised, and the bytes it passed to `sign_hash`.

The invariant of a run (`Inv`) ties the ledger to the calls: the rows are those
of the proofs that were returned, in their order, and they are chained.
`Inv.run` carries it through every run; the results about whole runs follow
from it:

here `verifyChain_recorded_iff`, when the verifier accepts what is read back.
-/

import ProvableAi.Engine.Export

namespace ProvableAi

open HashChain

/-- A `GovernanceEngine` and its storage. -/
structure Engine where
  db : Db
  /-- `_protocols`: from the hash to the spec. -/
  protocols : List (String × List (String × Json))
  /-- `_instances`: from the id to the state and the protocol's hash. -/
  instances : List (String × Json × String)
  /-- `_active_protocol_hash`. -/
  active : Option String

/-- An engine over a fresh database. -/
def Engine.fresh : Engine := ⟨.fresh, [], [], none⟩

/-- A call. -/
inductive Op where
  | addApprovedModel (now modelVersion modelName : String)
  | addApprovedAgent (now agentVersion agentName : String)
  | addApprovedPolicy (now policyVersion policyName : String)
  | deactivatePolicy (policyVersion : String)
  | compile (now : String) (spec : List (String × Json))
  | createInstance (instanceId : String)
  | recordDecision (env : CallEnv) (args : DecisionArgs)
  | exportProof (env : CallEnv) (instanceId : String)

/-- What a call returned or raised. -/
inductive Outcome where
  | done
  | compiled (protocolHash : String)
  | created (instanceId : String) (state : Json)
  | proof (p : ProofV1)
  | package (j : Json)
  | raised (e : PyErr)

namespace Engine

/-- `compile`. -/
def compile (s : Engine) (now : String) (spec : List (String × Json)) : Outcome × Engine :=
  let protocolHash := sha256Hex (dumps (.obj spec))
  (.compiled protocolHash,
    { s with
      db := s.db.registerProtocol now protocolHash (.obj spec)
      protocols := (protocolHash, spec) :: s.protocols
      active := some protocolHash })

/-- `create_instance`.  Its `INSERT OR IGNORE` gives no `created_at`, so it
inserts nothing. -/
def createInstance (s : Engine) (instanceId : String) : Outcome × Engine :=
  match s.active with
  | none => (.raised (.valueError "No protocol compiled. Call compile() first."), s)
  | some protocolHash =>
    if (s.instances.lookup instanceId).isSome then
      (.raised (.valueError ("Instance '" ++ instanceId ++ "' already exists.")), s)
    else
      match ((s.protocols.lookup protocolHash).getD []).lookup "initial_state" with
      | none => (.raised (.keyError "initial_state"), s)
      | some state =>
        (.created instanceId state,
          { s with
            db.instances := insertInstance s.db.instances defaultTenant instanceId protocolHash state.pyStr none
            instances := (instanceId, state, protocolHash) :: s.instances })

/-- One call. -/
def step (signer : Signer) (s : Engine) : Op → Outcome × Engine
  | .addApprovedModel now v n => (.done, { s with db := s.db.addApprovedModel now v n })
  | .addApprovedAgent now v n => (.done, { s with db := s.db.addApprovedAgent now v n })
  | .addApprovedPolicy now v n => (.done, { s with db := s.db.addApprovedPolicy now v n })
  | .deactivatePolicy v => (.done, { s with db := s.db.deactivatePolicy v })
  | .compile now spec => s.compile now spec
  | .createInstance i => s.createInstance i
  | .recordDecision env a =>
    match recordDecision s.db signer env a with
    | (.ok p, db) => (.proof p, { s with db := db })
    | (.error e, db) => (.raised e, { s with db := db })
  | .exportProof env i =>
    match exportProof s.db signer env i with
    | (.ok j, db) => (.package j, { s with db := db })
    | (.error e, db) => (.raised e, { s with db := db })

/-- The bytes a call passes to `sign_hash`: the hash of a decision, the root of an
export. -/
def sent (s : Engine) : Op → List Bytes
  | .recordDecision _ a =>
    match draft s.db a >>= Draft.hash with
    | .ok currentHash => [(fromHex currentHash).getD []]
    | .error _ => []
  | .exportProof _ i =>
    match proofDicts (s.db.getLedgerChain i defaultTenant) >>= fun _ => s.db.computeInstanceRoot i with
    | .ok root => [(fromHex root).getD []]
    | .error _ => []
  | _ => []

end Engine

/-- A call of a run, with what came of it. -/
structure Event where
  op : Op
  outcome : Outcome
  sent : List Bytes

/-- A run: the engine after the calls, and what happened. -/
def Engine.run (signer : Signer) : Engine → List Op → Engine × List Event
  | s, [] => (s, [])
  | s, op :: ops =>
    let (outcome, s') := s.step signer op
    let (t, events) := Engine.run signer s' ops
    (t, ⟨op, outcome, s.sent op⟩ :: events)

/-- The `record_decision` calls that returned, with their proofs. -/
def recorded (events : List Event) : List (DecisionArgs × ProofV1) :=
  events.filterMap fun
    | ⟨.recordDecision _ a, .proof p, _⟩ => some (a, p)
    | _ => none

/-- Those on one instance. -/
def onInstance (i : String) (acc : List (DecisionArgs × ProofV1)) : List (DecisionArgs × ProofV1) :=
  acc.filter fun ap => ap.1.instanceId = i

variable {signer : Signer}

theorem Engine.run_append (s : Engine) (xs ys : List Op) :
    s.run signer (xs ++ ys) =
      (((s.run signer xs).1.run signer ys).1, (s.run signer xs).2 ++ ((s.run signer xs).1.run signer ys).2) := by
  induction xs generalizing s with
  | nil => rfl
  | cons x xs ih => simp only [List.cons_append, run, ih]

/-- An event of a run is the step of one of its calls, after the calls before it. -/
theorem Engine.mem_run {s : Engine} {ops : List Op} {ev : Event} (h : ev ∈ (s.run signer ops).2) :
    ∃ before after, ops = before ++ ev.op :: after ∧
      ev.outcome = ((s.run signer before).1.step signer ev.op).1 ∧
      ev.sent = (s.run signer before).1.sent ev.op := by
  induction ops generalizing s with
  | nil => cases h
  | cons op ops ih =>
    rcases List.mem_cons.1 h with rfl | h
    · exact ⟨[], ops, rfl, rfl, rfl⟩
    · obtain ⟨before, after, rfl, ho, hs⟩ := ih h
      exact ⟨op :: before, after, rfl, ho, hs⟩

/-- The event of the last call. -/
theorem Engine.mem_run_concat (s : Engine) (ops : List Op) (op : Op) :
    ⟨op, ((s.run signer ops).1.step signer op).1, (s.run signer ops).1.sent op⟩ ∈
      (s.run signer (ops ++ [op])).2 := by
  rw [Engine.run_append]
  exact List.mem_append_right _ (List.mem_singleton_self _)

theorem recorded_append (es fs : List Event) : recorded (es ++ fs) = recorded es ++ recorded fs :=
  List.filterMap_append

/-! ### The invariant -/

/-- The ledger holds the rows of the proofs that were returned, chained. -/
structure Inv (signer : Signer) (db : Db) (acc : List (DecisionArgs × ProofV1)) : Prop where
  ledger : db.ledger = acc.map fun ap => ap.2.row
  built : ∀ ap ∈ acc, Built signer ap.1 ap.2
  chained : Chained db.ledger

namespace Inv

variable {db : Db} {acc : List (DecisionArgs × ProofV1)}

theorem fresh : Inv signer .fresh [] := ⟨rfl, by simp, .nil⟩

theorem hexRows (h : Inv signer db acc) : HexRows db.ledger := by
  intro r hr
  rw [h.ledger] at hr
  obtain ⟨ap, -, rfl⟩ := List.mem_map.1 hr
  exact ⟨ap.2.ledger.currentHash, rfl⟩

theorem oneTenant (h : Inv signer db acc) : OneTenant db.ledger := by
  intro r hr
  rw [h.ledger] at hr
  obtain ⟨ap, -, rfl⟩ := List.mem_map.1 hr
  rfl

/-- The rows of an instance are those of the proofs recorded on it. -/
theorem rowsOf_eq (h : Inv signer db acc) (i : String) :
    rowsOf db.ledger defaultTenant i = ((onInstance i acc).map Prod.snd).map ProofV1.row := by
  rw [h.ledger, rowsOf, onInstance, List.filter_map, List.map_map]
  refine congrArg (List.map _) (List.filter_congr fun ap hap => ?_)
  have hi : ap.2.instanceId = ap.1.instanceId := (h.built ap hap).instanceId
  have ht : ap.2.row.tenantId = defaultTenant := rfl
  have hr : ap.2.row.instanceId = ap.2.instanceId := rfl
  simp [ht, hr, hi]

theorem getLedgerChain_eq (h : Inv signer db acc) (i : String) :
    db.getLedgerChain i defaultTenant = ((onInstance i acc).map Prod.snd).map ProofV1.row := by
  rw [Db.getLedgerChain_eq h.chained, h.rowsOf_eq]

theorem dump_wf (h : Inv signer db acc) (i : String) : ∀ p ∈ (onInstance i acc).map Prod.snd, p.dump.wf = true := by
  intro p hp
  obtain ⟨ap, hap, rfl⟩ := List.mem_map.1 hp
  exact (h.built ap (List.mem_filter.1 hap).1).wf

/-- A change elsewhere keeps the invariant. -/
theorem of_ledger_eq (h : Inv signer db acc) {db' : Db} (hl : db'.ledger = db.ledger) : Inv signer db' acc :=
  ⟨hl.trans h.ledger, h.built, hl ▸ h.chained⟩

/-- **One call of `record_decision`**: it raises and changes nothing, or the
proof it returns is built from its arguments and its row is appended. -/
theorem record_cases (h : Inv signer db acc) (env : CallEnv) (a : DecisionArgs) :
    (∃ e, recordDecision db signer env a = (.error e, db)) ∨
      ∃ p, recordDecision db signer env a = (.ok p, db.appended env.now.text p.toDict) ∧
        Inv signer (db.appended env.now.text p.toDict) (acc ++ [(a, p)]) ∧ Recordable db a ∧
        env.signFault = none := by
  obtain he | ⟨p, hp, -, hr⟩ := recordDecision_cases db signer env a
  · exact .inl he
  · refine .inr ⟨p, hr, ?_, (buildProof_isOk_iff h.chained h.hexRows).1 ⟨p, hp⟩⟩
    obtain ⟨hb, hprev, hseq⟩ := buildProof_ok h.chained h.hexRows hp
    rw [← hb.instanceId] at hprev hseq
    refine ⟨?_, ?_, ?_⟩
    · rw [List.map_append, ← h.ledger]; rfl
    · intro ap hap
      rcases List.mem_append.1 hap with hap | hap
      · exact h.built ap hap
      · obtain rfl := List.mem_singleton.1 hap
        exact hb
    · exact h.chained.concat (r := p.row) hseq hprev

/-- A recordable call returns if its hash is new to the instance. -/
theorem record_returns (h : Inv signer db acc) (env : CallEnv) {a : DecisionArgs} (hr : Recordable db a)
    (hf : env.signFault = none)
    (hnew : ∀ p, buildProof db signer env a = .ok p →
      ∀ ap ∈ onInstance a.instanceId acc, ap.2.ledger.currentHash ≠ p.ledger.currentHash) :
    ∃ p, buildProof db signer env a = .ok p ∧
      recordDecision db signer env a = (.ok p, db.appended env.now.text p.toDict) := by
  obtain ⟨p, hp⟩ : ∃ p, buildProof db signer env a = .ok p :=
    (buildProof_isOk_iff h.chained h.hexRows).2 ⟨hr, hf⟩
  obtain ⟨hb, hprev, hseq⟩ := buildProof_ok h.chained h.hexRows hp
  have happ : db.Appendable p.toDict := by
    refine (hb.appendable_iff h.chained h.oneTenant hprev hseq).2 fun r hmem => ?_
    rw [h.rowsOf_eq, List.map_map] at hmem
    obtain ⟨ap, hap, rfl⟩ := List.mem_map.1 hmem
    exact fun heq => hnew p hp ap hap (HexText.text_inj heq)
  refine ⟨p, hp, ?_⟩
  rw [recordDecision, hp]
  simp only [Db.appendLedgerEntry_of_appendable env.now.text happ]

/-- **One call of `export_proof`.** -/
theorem exportProof_eq (h : Inv signer db acc) (env : CallEnv) (i : String) :
    exportProof db signer env i =
      match env.signFault with
      | some e => (.error e, db)
      | none => (.ok (chainPackage signer i ((onInstance i acc).map Prod.snd)), db.freezeInstance i defaultTenant) :=
  ProvableAi.exportProof_eq (h.getLedgerChain_eq i) (h.dump_wf i) signer env

/-- An export whose signer does not raise returns the package of the chain and
freezes the instance. -/
theorem step_exportProof {s : Engine} (h : Inv signer s.db acc) (env : CallEnv) (hf : env.signFault = none)
    (i : String) :
    ∃ t, s.step signer (.exportProof env i) =
        (.package (chainPackage signer i ((onInstance i acc).map Prod.snd)), t) ∧
      Inv signer t.db acc ∧ t.db = s.db.freezeInstance i defaultTenant := by
  refine ⟨{ s with db := s.db.freezeInstance i defaultTenant }, ?_, h.of_ledger_eq rfl, rfl⟩
  rw [Engine.step, h.exportProof_eq, hf]

/-- What an export returned is the package of the chain. -/
theorem package_eq {s : Engine} (h : Inv signer s.db acc) {env : CallEnv} {i : String} {package : Json}
    (he : (s.step signer (.exportProof env i)).1 = .package package) :
    package = chainPackage signer i ((onInstance i acc).map Prod.snd) := by
  rw [Engine.step, h.exportProof_eq] at he
  cases hf : env.signFault with
  | some e => rw [hf] at he; cases he
  | none => rw [hf] at he; exact (Outcome.package.inj he).symm

end Inv

/-- What one call does to the ledger: a `record_decision` that returns appends
its proof, nothing else touches it. -/
theorem Engine.step_inv {s : Engine} {acc : List (DecisionArgs × ProofV1)} (h : Inv signer s.db acc) (op : Op) :
    Inv signer (s.step signer op).2.db (acc ++ recorded [⟨op, (s.step signer op).1, s.sent op⟩]) := by
  have hsame : ∀ {db' : Db} {o : Outcome}, db'.ledger = s.db.ledger → (∀ p, o ≠ .proof p) →
      Inv signer db' (acc ++ recorded [⟨op, o, s.sent op⟩]) := by
    intro db' o hl ho
    have hnil : recorded [⟨op, o, s.sent op⟩] = [] := by
      cases o with
      | proof p => exact absurd rfl (ho p)
      | _ => cases op <;> rfl
    rw [hnil, List.append_nil]
    exact h.of_ledger_eq hl
  cases op with
  | addApprovedModel now v n => exact hsame rfl (by simp [step])
  | addApprovedAgent now v n => exact hsame rfl (by simp [step])
  | addApprovedPolicy now v n => exact hsame rfl (by simp [step])
  | deactivatePolicy v => exact hsame rfl (by simp [step])
  | compile now spec =>
    refine hsame ?_ (by simp [step, compile])
    simp only [step, compile, Db.registerProtocol]
    split <;> rfl
  | createInstance i =>
    rw [step, createInstance]
    split
    · exact hsame rfl (by simp)
    · split
      · exact hsame rfl (by simp)
      · split
        · exact hsame rfl (by simp)
        · exact hsame rfl (by simp)
  | recordDecision env a =>
    obtain ⟨e, he⟩ | ⟨p, hp, hinv, -⟩ := h.record_cases env a
    · rw [step, he]
      exact hsame rfl (by simp)
    · rw [step, hp]
      exact hinv
  | exportProof env i =>
    rw [step, h.exportProof_eq]
    cases env.signFault with
    | some e => exact hsame rfl (by simp)
    | none => exact hsame rfl (by simp)

/-- **The ledger of every run** holds the proofs that its calls returned. -/
theorem Inv.run {s : Engine} {acc : List (DecisionArgs × ProofV1)} (h : Inv signer s.db acc) (ops : List Op) :
    Inv signer (s.run signer ops).1.db (acc ++ recorded (s.run signer ops).2) := by
  induction ops generalizing s acc with
  | nil => simpa [Engine.run, recorded] using h
  | cons op ops ih =>
    have hs := ih (Engine.step_inv h op)
    rw [List.append_assoc, ← recorded_append] at hs
    exact hs

theorem inv_run (signer : Signer) (ops : List Op) :
    Inv signer (Engine.fresh.run signer ops).1.db (recorded (Engine.fresh.run signer ops).2) := by
  simpa using Inv.run (s := .fresh) Inv.fresh ops

/-! ### The recorder and the verifier -/

/-- The documents of recorded proofs parse back to them. -/
theorem mapM_parse_documents (py : Pydantic) {ps : List ProofV1} (h : ∀ p ∈ ps, p.dump.wf = true) :
    (ps.map ProofV1.document).mapM (ProofV1.parse py) = some (ps.map ProofV1.canon) := by
  induction ps with
  | nil => rfl
  | cons p ps ih =>
    rw [List.map_cons, List.mapM_cons, p.parse_document py (h p (by simp)),
      ih fun q hq => h q (List.mem_cons_of_mem _ hq)]
    rfl

theorem mapM_loads_rows {ps : List ProofV1} (h : ∀ p ∈ ps, p.dump.wf = true) :
    (ps.map ProofV1.row).mapM (fun r => loads r.proofJson) = some (ps.map ProofV1.document) := by
  induction ps with
  | nil => rfl
  | cons p ps ih =>
    rw [List.map_cons, List.mapM_cons, p.loads_row (h p (by simp)),
      ih fun q hq => h q (List.mem_cons_of_mem _ hq)]
    rfl

/-- The proofs recorded on an instance are linked, because their rows are. -/
theorem Inv.linked {db : Db} {acc : List (DecisionArgs × ProofV1)} (h : Inv signer db acc) (i : String) :
    Linked proofReading genesisHash 1 ((onInstance i acc).map Prod.snd) := by
  have hl := h.chained defaultTenant i
  rw [h.rowsOf_eq i] at hl
  exact (linked_map (S := rowReading) (R := proofReading) (f := ProofV1.row) (fun _ => rfl)
    (fun _ => rfl) (fun _ => rfl)).1 hl

/-- What is read back of an instance, and when it is accepted. -/
theorem Inv.verifyChain_iff {db : Db} {acc : List (DecisionArgs × ProofV1)} (h : Inv signer db acc)
    (py : Pydantic) {ed : Ed25519} (hs : signer.Honest ed) (now i : String) :
    ∃ ds, (db.getLedgerChain i defaultTenant).mapM (fun r => loads r.proofJson) = some ds ∧
      ((verifyChain py ed now ds).valid = true ↔
        onInstance i acc ≠ [] ∧ ∀ ap ∈ onInstance i acc, ¬ SeededStrict ap.1) := by
  have hwf := h.dump_wf i
  refine ⟨((onInstance i acc).map Prod.snd).map ProofV1.document, ?_, ?_⟩
  · rw [h.getLedgerChain_eq i]
    exact mapM_loads_rows hwf
  have hlinked : Linked proofReading genesisHash 1 (((onInstance i acc).map Prod.snd).map ProofV1.canon) :=
    (linked_map (f := ProofV1.canon) (fun _ => rfl) (fun _ => rfl) (fun _ => rfl)).2 (h.linked i)
  have hgenuine : (∀ p ∈ ((onInstance i acc).map Prod.snd).map ProofV1.canon, Genuine ed p) ↔
      ∀ ap ∈ onInstance i acc, ¬ SeededStrict ap.1 := by
    rw [List.map_map, List.forall_mem_map]
    refine forall₂_congr fun ap hap => ?_
    exact Genuine.canon_iff.trans ((h.built ap (List.mem_filter.1 hap).1).genuine_iff hs)
  rw [verifyChain_valid_iff]
  simp only [mapM_parse_documents py hwf, Option.some.injEq, exists_eq_left', hlinked, and_true, hgenuine,
    ne_eq, List.map_eq_nil_iff]

/-- **Recorder and verifier agree on a run** exactly where no strict decision was
given a seed: what is read back of an instance with a decision is accepted if
and only if no call on it that returned was strict with a `random_seed`. -/
theorem verifyChain_recorded_iff (py : Pydantic) {ed : Ed25519} (hs : signer.Honest ed) (now : String)
    (ops : List Op) (i : String) :
    ∃ ds, ((Engine.fresh.run signer ops).1.db.getLedgerChain i defaultTenant).mapM
        (fun r => loads r.proofJson) = some ds ∧
      ((verifyChain py ed now ds).valid = true ↔
        onInstance i (recorded (Engine.fresh.run signer ops).2) ≠ [] ∧
        ∀ ap ∈ onInstance i (recorded (Engine.fresh.run signer ops).2), ¬ SeededStrict ap.1) :=
  (inv_run signer ops).verifyChain_iff py hs now i

/-! A loan, recorded and verified. -/

/-- The signatures of the key of the first test vector of RFC 8032 over the hash of
a strict decision with the seed `42`. -/
def seededSignature : Bytes :=
  [0xda, 0x85, 0xfb, 0xb0, 0x9e, 0xb5, 0x18, 0x4e, 0x0e, 0x27, 0xcf, 0x9d, 0x01, 0x42, 0x44, 0xf3,
   0x27, 0x08, 0x78, 0x77, 0x05, 0x1e, 0xcb, 0x30, 0x98, 0x34, 0x93, 0xae, 0x73, 0x8e, 0xc1, 0x87,
   0xd7, 0x32, 0xe5, 0x58, 0x98, 0x83, 0x75, 0xc9, 0xaf, 0x8a, 0xd6, 0x6e, 0xfc, 0xb8, 0x1c, 0x91,
   0x77, 0xf0, 0x68, 0x85, 0x73, 0xc2, 0x05, 0x95, 0x5b, 0xc7, 0x83, 0x31, 0x45, 0xc4, 0x48, 0x05]

/-- Its signature over the hash of the decision after the loan's. -/
def fundedSignature : Bytes :=
  [0x37, 0xe3, 0xbe, 0x6a, 0x8f, 0x6e, 0x52, 0x04, 0x7d, 0x4e, 0x2a, 0xb3, 0xcc, 0x70, 0xb5, 0x4c,
   0xda, 0x97, 0x83, 0xc4, 0x35, 0xd8, 0x7b, 0xf3, 0x10, 0xaa, 0xb9, 0xfc, 0xc8, 0xf9, 0x8e, 0x04,
   0x87, 0xa7, 0x15, 0x06, 0x8a, 0xdb, 0xf2, 0x24, 0x0e, 0xd6, 0x62, 0xc2, 0xf3, 0x55, 0x01, 0x3d,
   0xf6, 0x91, 0x64, 0x3c, 0x5b, 0x40, 0x60, 0x3f, 0xdb, 0x6e, 0x18, 0x85, 0x9e, 0x08, 0x16, 0x0d]

/-- Its signature over the root of the loan's chain. -/
def rootSignature : Bytes :=
  [0x5c, 0x10, 0xb7, 0x74, 0x0c, 0x7e, 0x3e, 0x36, 0x3c, 0x97, 0x71, 0x25, 0xdd, 0x7e, 0x1e, 0xa5,
   0xa6, 0x2d, 0xc6, 0xd4, 0xca, 0xfd, 0x50, 0x39, 0x64, 0x1b, 0x94, 0xde, 0xee, 0x28, 0xd4, 0x0c,
   0x23, 0x5d, 0x48, 0xc2, 0x33, 0x9e, 0x94, 0x7b, 0xaa, 0x26, 0x71, 0x9c, 0x6c, 0x21, 0xc2, 0xd8,
   0x23, 0xb4, 0x6a, 0x6b, 0x7b, 0x69, 0xcf, 0x09, 0x35, 0xda, 0x16, 0x53, 0x2f, 0x63, 0x57, 0x0d]

/-- The hash of the loan's decision. -/
def loanHash : String := sha256Hex (dumps loanPayload)

/-- What is hashed of the loan's decision with a seed. -/
def seededPayload : Json :=
  hashPayload loanDecision.dump loanContext.dump loanGovernance.dump
    (Determinism.dump ⟨.strictDeterministic, some "42", none, rfl⟩) genesisHash 1

theorem funded_ne : "funded" ≠ "" := by decide

/-- What is hashed of the decision after the loan's. -/
def fundedPayload : Json :=
  hashPayload (Decision.dump ⟨"approved", "funded", loanDecision.toState_ne, funded_ne⟩) loanContext.dump loanGovernance.dump
    (Determinism.dump ⟨.strictDeterministic, none, none, unseeded_fields⟩) loanHash 2

/-- The key on these four messages. -/
def loanSign (m : Bytes) : Bytes :=
  if m = sha256 (utf8 loanHash) then rootSignature
  else if m = sha256 (utf8 (dumps loanPayload)) then loanSignature
  else if m = sha256 (utf8 (dumps seededPayload)) then seededSignature
  else if m = sha256 (utf8 (dumps fundedPayload)) then fundedSignature
  else List.replicate 64 0

theorem loanKeyId_ne : isBlank "env-d75a980182b10ab7" = false := by decide

theorem rfcPublicKey_length : rfcPublicKey.length = 32 := rfl

theorem loanSign_length (m : Bytes) : (loanSign m).length = 64 := by
  rw [loanSign]
  split_ifs <;> rfl

/-- A signer with that key. -/
def loanSigner : Signer where
  keyId := "env-d75a980182b10ab7"
  publicKey := rfcPublicKey
  sign := loanSign
  keyId_ne := loanKeyId_ne
  publicKey_length := rfcPublicKey_length
  sign_length := loanSign_length

/-- The verifier that takes what the key signs. -/
def loanVerifier : Ed25519 := fun pk m s => decide (pk = rfcPublicKey ∧ s = loanSign m)

theorem loanSigner_honest : loanSigner.Honest loanVerifier := fun _ => decide_eq_true ⟨rfl, rfl⟩

/-- The calls that approve the loan's versions. -/
def approvals : List Op :=
  [.addApprovedModel "2026-01-01T00:00:00Z" "v1.0.0" "", .addApprovedAgent "2026-01-01T00:00:00Z" "a1" "",
    .addApprovedPolicy "2026-01-01T00:00:00Z" "p1" ""]

/-- The engine after them. -/
def approved : Engine := (Engine.fresh.run loanSigner approvals).1

theorem loanNow_length : 20 ≤ "2026-01-01T00:00:00Z".length := by decide

theorem loanNow_utc : endsWithZ "2026-01-01T00:00:00Z" = true := by decide

/-- The clock of the examples; the signer does not raise. -/
def loanEnv : CallEnv := ⟨⟨"2026-01-01T00:00:00Z", loanNow_length, loanNow_utc⟩, none⟩

/-- A call on the loan. -/
def loanCall (fromState toState : String) (seed : Option String) : DecisionArgs where
  instanceId := "loan_1"
  fromState := fromState
  toState := toState
  modelVersion := "v1.0.0"
  agentVersion := "a1"
  policyVersion := "p1"
  reasonCode := "SCORE_ABOVE_THRESHOLD"
  policyRule := "credit_policy_v2.rule_7"
  rawInputs := some (.obj [("credit_score", .int 742)])
  featureContributions := none
  thresholdUsed := some "700"
  metadata := none
  determinismMode := .strictDeterministic
  randomSeed := seed
  externalCalls := none
  features_nodup := by simp
  metadata_wf := by simp

theorem loanCall_recordable {db : Db} {f t : String} (seed : Option String)
    (hm : "v1.0.0" ∈ db.modelVersions) (ha : "a1" ∈ db.agentVersions) (hp : "p1" ∈ db.policyVersions)
    (hf : f ≠ "") (ht : t ≠ "") : Recordable db (loanCall f t seed) where
  modelVersion := hm
  agentVersion := ha
  policyVersion := hp
  metadata := rfl
  rawInputs := rfl
  seed := fun h => by cases h
  calls := fun h => by cases h
  instanceId_ne := (by decide : "loan_1" ≠ "")
  fromState_ne := hf
  toState_ne := ht
  reasonCode_ne := (by decide : "SCORE_ABOVE_THRESHOLD" ≠ "")
  policyRule_ne := (by decide : "credit_policy_v2.rule_7" ≠ "")
  modelVersion_ne := (by decide : "v1.0.0" ≠ "")
  agentVersion_ne := (by decide : "a1" ≠ "")
  policyVersion_ne := (by decide : "p1" ≠ "")

theorem approved_recordable (seed : Option String) : Recordable approved.db (loanCall "pending" "approved" seed) :=
  loanCall_recordable seed (by decide) (by decide) (by decide) (by decide) (by decide)

theorem approved_inv : Inv loanSigner approved.db [] := Inv.fresh.of_ledger_eq rfl

/-- Approvals, and one decision on the loan. -/
def loanRun (seed : Option String) : List Op :=
  approvals ++ [.recordDecision loanEnv (loanCall "pending" "approved" seed)]

/-- The decision is recorded: the run ends in the engine with its row. -/
theorem loanRun_records (seed : Option String) :
    ∃ p, buildProof approved.db loanSigner loanEnv (loanCall "pending" "approved" seed) = .ok p ∧
      (Engine.fresh.run loanSigner (loanRun seed)).1 =
        { approved with db := approved.db.appended loanEnv.now.text p.toDict } ∧
      recorded (Engine.fresh.run loanSigner (loanRun seed)).2 = [(loanCall "pending" "approved" seed, p)] := by
  obtain ⟨p, hb, hp⟩ := approved_inv.record_returns loanEnv (approved_recordable seed) rfl
    (by simp [onInstance])
  have hstep : approved.step loanSigner (.recordDecision loanEnv (loanCall "pending" "approved" seed)) =
      (.proof p, { approved with db := approved.db.appended loanEnv.now.text p.toDict }) := by
    rw [Engine.step, hp]
  have hrun : approved.run loanSigner [.recordDecision loanEnv (loanCall "pending" "approved" seed)] =
      ({ approved with db := approved.db.appended loanEnv.now.text p.toDict },
        [⟨.recordDecision loanEnv (loanCall "pending" "approved" seed), .proof p,
          approved.sent (.recordDecision loanEnv (loanCall "pending" "approved" seed))⟩]) := by
    rw [Engine.run, hstep]
    rfl
  have happend : Engine.fresh.run loanSigner (loanRun seed) =
      ((approved.run loanSigner [.recordDecision loanEnv (loanCall "pending" "approved" seed)]).1,
        (Engine.fresh.run loanSigner approvals).2 ++
          (approved.run loanSigner [.recordDecision loanEnv (loanCall "pending" "approved" seed)]).2) :=
    Engine.run_append _ _ _
  have hnone : recorded (Engine.fresh.run loanSigner approvals).2 = [] := rfl
  refine ⟨p, hb, ?_, ?_⟩
  · rw [happend, hrun]
  · rw [happend, recorded_append, hrun, hnone]
    rfl

/-- The loan is recorded and exported. -/
theorem loanRun_exports :
    ∃ p frozen, buildProof approved.db loanSigner loanEnv (loanCall "pending" "approved" none) = .ok p ∧
      recorded (Engine.fresh.run loanSigner (loanRun none)).2 = [(loanCall "pending" "approved" none, p)] ∧
      (Engine.fresh.run loanSigner (loanRun none)).1.step loanSigner (.exportProof loanEnv "loan_1") =
        (.package (chainPackage loanSigner "loan_1" [p]), frozen) ∧
      Inv loanSigner frozen.db [(loanCall "pending" "approved" none, p)] ∧
      frozen.db = (approved.db.appended loanEnv.now.text p.toDict).freezeInstance "loan_1" defaultTenant := by
  obtain ⟨p, hb, hstate, hrec⟩ := loanRun_records none
  have hinv := inv_run loanSigner (loanRun none)
  rw [hrec] at hinv
  obtain ⟨frozen, hstep, hfrozen, hdb⟩ := hinv.step_exportProof loanEnv rfl "loan_1"
  have hon : onInstance "loan_1" [(loanCall "pending" "approved" none, p)] =
      [(loanCall "pending" "approved" none, p)] := by simp [onInstance, loanCall]
  rw [hon] at hstep
  rw [hstate] at hdb
  exact ⟨p, frozen, hb, hrec, hstep, hfrozen, hdb⟩

/-- The loan without a seed is read back and accepted. -/
theorem verifyChain_recorded_loan :
    ∃ ds, ((Engine.fresh.run loanSigner (loanRun none)).1.db.getLedgerChain "loan_1" defaultTenant).mapM
        (fun r => loads r.proofJson) = some ds ∧
      (verifyChain plainPydantic loanVerifier "2026-02-01T00:00:00Z" ds).valid = true := by
  obtain ⟨p, -, -, hrec⟩ := loanRun_records none
  obtain ⟨ds, hds, hiff⟩ := verifyChain_recorded_iff plainPydantic loanSigner_honest "2026-02-01T00:00:00Z"
    (loanRun none) "loan_1"
  refine ⟨ds, hds, hiff.2 ?_⟩
  rw [hrec]
  exact ⟨by simp [onInstance, loanCall], by simp [onInstance, loanCall, SeededStrict]⟩

/-- The loan with a seed is recorded by an honest signer, and what is read back is
refused. -/
theorem strict_seed_refused : loanSigner.Honest loanVerifier ∧
    (∃ p, recorded (Engine.fresh.run loanSigner (loanRun (some "42"))).2 =
      [(loanCall "pending" "approved" (some "42"), p)]) ∧
    ∃ ds, ((Engine.fresh.run loanSigner (loanRun (some "42"))).1.db.getLedgerChain "loan_1" defaultTenant).mapM
        (fun r => loads r.proofJson) = some ds ∧
      (verifyChain plainPydantic loanVerifier "2026-02-01T00:00:00Z" ds).valid = false := by
  obtain ⟨p, -, -, hrec⟩ := loanRun_records (some "42")
  have hinv := inv_run loanSigner (loanRun (some "42"))
  obtain ⟨ds, hds, hiff⟩ := hinv.verifyChain_iff plainPydantic loanSigner_honest "2026-02-01T00:00:00Z" "loan_1"
  refine ⟨loanSigner_honest, ⟨p, hrec⟩, ds, hds, ?_⟩
  rw [← Bool.not_eq_true, hiff, hrec]
  simp [onInstance, loanCall, SeededStrict]

/-- The same decision on another loan. -/
def secondCall : DecisionArgs := { loanCall "pending" "approved" none with instanceId := "loan_2" }

/-- Two loans, one after the other. -/
def twoLoans : List Op := loanRun none ++ [.recordDecision loanEnv secondCall]

/-- Both are recorded. -/
theorem twoLoans_recorded :
    ∃ p q, recorded (Engine.fresh.run loanSigner twoLoans).2 =
      [(loanCall "pending" "approved" none, p), (secondCall, q)] := by
  obtain ⟨p, -, hstate, hrec⟩ := loanRun_records none
  have hinv := inv_run loanSigner (loanRun none)
  rw [hrec] at hinv
  have hr : Recordable (Engine.fresh.run loanSigner (loanRun none)).1.db secondCall := by
    have h := approved_recordable none
    rw [hstate]
    exact { h with instanceId_ne := (by decide : "loan_2" ≠ "") }
  have hnone : onInstance secondCall.instanceId [(loanCall "pending" "approved" none, p)] = [] := by
    simp [onInstance, loanCall, secondCall]
  obtain ⟨q, -, hq⟩ := hinv.record_returns loanEnv hr rfl (by simp [hnone])
  refine ⟨p, q, ?_⟩
  rw [twoLoans, Engine.run_append, recorded_append, hrec, Engine.run, Engine.step, hq]
  rfl

end ProvableAi
