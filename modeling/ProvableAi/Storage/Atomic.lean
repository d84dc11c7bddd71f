/-
# What a failed append leaves behind

`append_ledger_entry` on any dict, with every point it can fail at.  A missing
key is a `KeyError`, a value SQLite has no type for a `ProgrammingError`, a lone
surrogate anywhere in the dict a `UnicodeEncodeError`; of what is raised only
`IntegrityError` rolls back.  Everything up to `_ensure_instance` reads.  That
call may add the row of a new instance, and what fails after it leaves the row in
the open transaction, where the next commit of any method publishes it; the
rollback in turn takes back such rows of earlier calls (`append_atomic_iff`).

A connection is what is committed and what it sees, which differ by instance rows
alone in every run (`Store.OnlyInstances`).  How SQLite writes a float into a
text column is a parameter.
-/

import ProvableAi.Audit.Body
import ProvableAi.Storage.Concurrent

namespace ProvableAi
namespace Atomic

/-! ### The text of a dict -/

/-- The number of a code point. -/
def codePoint : CodePoint → ℕ
  | .char c => c.toNat
  | .surrogate n => 0xD800 + n

/-- `a <= b` of two texts. -/
def leText : PyStr → PyStr → Bool
  | [], _ => true
  | _ :: _, [] => false
  | a :: s, b :: t => codePoint a < codePoint b || (a = b && leText s t)

/-- A text in JSON; without `ensure_ascii` a surrogate stands for itself. -/
def quote (s : PyStr) : PyStr :=
  PyStr.ofString "\"" ++ s.flatMap (fun
    | .char c => (escapeChar c).map .char
    | .surrogate n => [.surrogate n]) ++ PyStr.ofString "\""

mutual
/-- `_canonical_json`, for what holds no integer of more than 4300 digits. -/
def jsonText : Body → PyStr
  | .null => .ofString "null"
  | .bool b => .ofString (if b then "true" else "false")
  | .int n => .ofString (toString n)
  | .float x =>
    if (Body.truncate x).isSome then .ofString (String.ofList x.text)
    else .ofString (if x.text.head? = some '-' then "-Infinity" else "Infinity")
  | .nan => .ofString "NaN"
  | .infinity negative => .ofString (if negative then "-Infinity" else "Infinity")
  | .str s => quote s
  | .arr xs => PyStr.ofString "[" ++ (PyStr.ofString ",").intercalate (itemTexts xs) ++ PyStr.ofString "]"
  | .obj kvs =>
    let sorted := (memberTexts kvs).insertionSort fun a b => leText a.1 b.1
    PyStr.ofString "\x7b" ++
      (PyStr.ofString ",").intercalate (sorted.map fun m => quote m.1 ++ PyStr.ofString ":" ++ m.2) ++
      PyStr.ofString "\x7d"

/-- `jsonText` of every item. -/
def itemTexts : List Body → List PyStr
  | [] => []
  | x :: xs => jsonText x :: itemTexts xs

/-- The keys and the `jsonText` of every value. -/
def memberTexts : List (PyStr × Body) → List (PyStr × PyStr)
  | [] => []
  | (k, x) :: kvs => (k, jsonText x) :: memberTexts kvs
end

mutual
/-- The value holds an integer that `str` refuses to write. -/
def tooLong : Body → Bool
  | .int n => 4300 < (Nat.toDigits 10 n.natAbs).length
  | .arr xs => itemTooLong xs
  | .obj kvs => memberTooLong kvs
  | _ => false

/-- `tooLong` of some item. -/
def itemTooLong : List Body → Bool
  | [] => false
  | x :: xs => tooLong x || itemTooLong xs

/-- `tooLong` of some value. -/
def memberTooLong : List (PyStr × Body) → Bool
  | [] => false
  | (_, x) :: kvs => tooLong x || memberTooLong kvs
end

/-! ### What is raised -/

/-- What `append_ledger_entry` raises. -/
inductive Err where
  | keyError (key : String)
  | typeError
  | attributeError
  /-- `Exceeds the limit (4300 digits) for integer string conversion`. -/
  | valueError
  | signingFailed (keyId : Body) (length : ℕ)
  /-- `LedgerError`: the instance belongs to another tenant. -/
  | ledgerError (instanceId : String) (owner : String)
  | duplicateSequenceId (sequenceId : Body)
  | sequenceGap (expected : ℤ) (actual : Body)
  | chainBroken (sequenceId : Body) (expected : String) (actual : Body)
  /-- A parameter of a type SQLite has no value for. -/
  | programmingError
  | overflowError
  | unicodeEncodeError
  | integrityError

/-- `v[k]`. -/
def item (v : Body) (k : String) : Except Err Body :=
  match v with
  | .obj kvs =>
    match kvs.lookup (.ofString k) with
    | some x => .ok x
    | none => .error (.keyError k)
  | _ => .error .typeError

/-- `v.get(k, default)`. -/
def getOr (v : Body) (k : String) (default : Body) : Except Err Body :=
  match v with
  | .obj kvs => .ok ((kvs.lookup (.ofString k)).getD default)
  | _ => .error .attributeError

/-- `len(v)`; `none` where it raises `TypeError`. -/
def len : Body → Option ℕ
  | .str s => some s.length
  | .arr xs => some xs.length
  | .obj kvs => some kvs.length
  | _ => none

/-! ### Comparing with a sequence number -/

/-- The double nearest to `a / b`; `none` where it is infinite. -/
def nearestDouble (a b : ℕ) : Option ℚ :=
  let guess : ℤ := (Nat.log2 a : ℤ) - Nat.log2 b
  let exponent := if b * 2 ^ guess.toNat ≤ a * 2 ^ (-guess).toNat then guess else guess - 1
  let q := if exponent - 52 < -1074 then -1074 else exponent - 52
  let m := Body.roundHalfEven (a * 2 ^ (-q).toNat) (b * 2 ^ q.toNat)
  if 2 ^ 1024 ≤ m * 2 ^ q.toNat then none else some (mkRat (m * 2 ^ q.toNat) (2 ^ (-q).toNat))

/-- The value of a float; `none` where it is infinite. -/
def floatValue (x : FloatLit) : Option ℚ :=
  let (n, e) := x.scaled
  (nearestDouble (n * 10 ^ e.toNat) (10 ^ (-e).toNat)).map fun r => if x.text.head? = some '-' then -r else r

-- its powers of ten are not for the elaborator to unfold
attribute [irreducible] floatValue

/-- `v < n` and `v > n`; `none` where they raise `TypeError`. -/
def compare (v : Body) (n : ℤ) : Option (Bool × Bool) :=
  match v with
  | .bool b => let m : ℤ := if b then 1 else 0; some (m < n, m > n)
  | .int m => some (m < n, m > n)
  | .float x =>
    match floatValue x with
    | some r => some (r < n, r > n)
    | none => let negative := x.text.head? = some '-'; some (negative, !negative)
  | .nan => some (false, false)
  | .infinity negative => some (negative, !negative)
  | _ => none

/-! ### Reading the dict -/

/-- What is read of the dict before the first statement. -/
structure Head where
  ledger : Body
  decision : Body
  decisionContext : Body
  governance : Body
  signature : Body
  instanceId : Body
  sequenceId : Body
  previousHash : Body
  tenantId : Body

/-- The lines before the check of the signature. -/
def head (proofDict : Body) : Except Err Head := do
  let ledger ← item proofDict "ledger"
  let decision ← item proofDict "decision"
  let decisionContext ← item proofDict "decision_context"
  let governance ← item proofDict "governance"
  let signature ← item proofDict "signature"
  let instanceId ← item proofDict "instance_id"
  let sequenceId ← item ledger "sequence_id"
  let previousHash ← item ledger "previous_hash"
  let tenantId ← getOr proofDict "tenant_id" (.str (.ofString defaultTenant))
  .ok ⟨ledger, decision, decisionContext, governance, signature, instanceId, sequenceId, previousHash, tenantId⟩

/-- The check of the signature's length; what has no length is a `TypeError`,
in the test or in the message. -/
def checkSignature (signature : Body) : Except Err Unit := do
  let value ← item signature "value"
  let keyId ← getOr signature "key_id" (.str (.ofString "unknown"))
  match len value with
  | some 128 => .ok ()
  | some n => .error (.signingFailed keyId n)
  | none => .error .typeError

/-! ### Statements -/

section

variable (realText : Body → String)

/-- A parameter for a text column, as the column stores it; `none` is `NULL`. -/
def bind (v : Body) : Except Err (Option String) :=
  match v with
  | .null | .nan => .ok none
  | .bool b => .ok (some (if b then "1" else "0"))
  | .int n => if -2 ^ 63 ≤ n ∧ n < 2 ^ 63 then .ok (some (toString n)) else .error .overflowError
  | .float _ | .infinity _ => .ok (some (realText v))
  | .str s =>
    match s.toString? with
    | some t => .ok (some t)
    | none => .error .unicodeEncodeError
  | .arr _ | .obj _ => .error .programmingError

/-- `sequence_id` as its column stores it; a float that passed the check before it
is an integer. -/
def bindSequence (v : Body) : Except Err (Option ℤ) :=
  match v with
  | .bool b => .ok (some (if b then 1 else 0))
  | .int n => if -2 ^ 63 ≤ n ∧ n < 2 ^ 63 then .ok (some n) else .error .overflowError
  | .float x => .ok ((floatValue x).map Rat.num)
  | .nan => .ok none
  | _ => .error .typeError

/-- A row is there for two parameters that are not `NULL`. -/
def select {α : Type} (f : String → String → Option α) (tenantId instanceId : Option String) : Option α :=
  tenantId.bind fun t => instanceId.bind fun i => f t i

/-- The number and the hash `_validate_chain_integrity` asks for. -/
def expected (ledger : List LedgerRow) (tenantId instanceId : Option String) : ℤ × String :=
  match select (lastRow ledger) tenantId instanceId with
  | some r => (r.sequenceId + 1, r.currentHash)
  | none => (1, genesisHash)

/-- `_validate_chain_integrity`. -/
def validateChainIntegrity (ledger : List LedgerRow) (h : Head) : Except Err Unit := do
  let instanceId ← bind realText h.instanceId
  let tenantId ← bind realText h.tenantId
  let conflict := select (fun t i => ledger.find? fun r => r.instanceId = i ∧ r.tenantId ≠ t) tenantId instanceId
  match conflict with
  | some r => .error (.ledgerError (instanceId.getD "") r.tenantId)
  | none =>
    let (seq, prev) := expected ledger tenantId instanceId
    match compare h.sequenceId seq, h.previousHash with
    | none, _ => .error .typeError
    | some (true, _), _ => .error (.duplicateSequenceId h.sequenceId)
    | some (_, true), _ => .error (.sequenceGap seq h.sequenceId)
    | some (false, false), .str s =>
      if s = .ofString prev then .ok () else .error (.chainBroken h.sequenceId prev h.previousHash)
    -- the message slices the hash, which only a list survives
    | some (false, false), .arr _ => .error (.chainBroken h.sequenceId prev h.previousHash)
    | some (false, false), _ => .error .typeError

/-- `_ensure_instance`: the row it inserts, where it inserts one. -/
def ensureInstance (instances : List InstanceRow) (now : String) (tenantId instanceId : Option String)
    (protocolHash currentState : Body) : Except Err (List InstanceRow) :=
  match select (fun t i => instances.find? fun r => r.tenantId = t ∧ r.instanceId = i) tenantId instanceId with
  | some _ => .ok instances
  | none => do
    let protocolHash ← bind realText protocolHash
    let currentState ← bind realText currentState
    match tenantId, instanceId, protocolHash, currentState with
    | some t, some i, some p, some c => .ok (insertInstance instances t i p c (some now))
    | _, _, _, _ => .ok instances

/-- Everything up to `_ensure_instance`: what was read, and the instances after it. -/
def prepare (db : Db) (now : String) (proofDict : Body) : Except Err (Head × List InstanceRow) := do
  let h ← head proofDict
  checkSignature h.signature
  validateChainIntegrity realText db.ledger h
  let protocolHash ← getOr h.governance "policy_version" (.str (.ofString "unknown"))
  let currentState ← item h.decision "to_state"
  let tenantId ← bind realText h.tenantId
  let instanceId ← bind realText h.instanceId
  let instances ← ensureInstance realText db.instances now tenantId instanceId protocolHash currentState
  .ok (h, instances)

/-- The parameters of the `INSERT INTO ledger`; `none` is `NULL`. -/
structure Params where
  tenantId : Option String
  instanceId : Option String
  sequenceId : Option ℤ
  previousHash : Option String
  currentHash : Option String
  signature : Option String
  keyId : Option String
  protocolHash : Option String
  fromState : Option String
  toState : Option String
  modelVersion : Option String
  agentVersion : Option String
  policyVersion : Option String
  metadataJson : Option String
  proofJson : Option String
  schemaVersion : Option String
  timestamp : Option String

/-- What follows `_ensure_instance`, up to the `INSERT`: the texts, the remaining
keys, and the binding of the parameters in their order. -/
def params (proofDict : Body) (h : Head) : Except Err Params := do
  if tooLong proofDict then throw .valueError
  let metadata ← getOr h.decisionContext "metadata" (.obj [])
  let currentHash ← item h.ledger "current_hash"
  let value ← item h.signature "value"
  let keyId ← item h.signature "key_id"
  let protocolHash ← getOr h.governance "policy_version" (.str (.ofString "unknown"))
  let fromState ← item h.decision "from_state"
  let toState ← item h.decision "to_state"
  let modelVersion ← item h.governance "model_version"
  let agentVersion ← item h.governance "agent_version"
  let policyVersion ← item h.governance "policy_version"
  let type ← getOr proofDict "type" (.str (.ofString "zorynex-proof-v1"))
  let timestamp ← item h.ledger "timestamp"
  let tenantId ← bind realText h.tenantId
  let instanceId ← bind realText h.instanceId
  let sequenceId ← bindSequence h.sequenceId
  let previousHash ← bind realText h.previousHash
  let currentHash ← bind realText currentHash
  let signature ← bind realText value
  let keyId ← bind realText keyId
  let protocolHash ← bind realText protocolHash
  let fromState ← bind realText fromState
  let toState ← bind realText toState
  let modelVersion ← bind realText modelVersion
  let agentVersion ← bind realText agentVersion
  let policyVersion ← bind realText policyVersion
  let metadataJson ← bind realText (.str (jsonText metadata))
  let proofJson ← bind realText (.str (jsonText proofDict))
  let schemaVersion ← bind realText type
  let timestamp ← bind realText timestamp
  .ok ⟨tenantId, instanceId, sequenceId, previousHash, currentHash, signature, keyId, protocolHash, fromState,
    toState, modelVersion, agentVersion, policyVersion, metadataJson, proofJson, schemaVersion, timestamp⟩

end

/-- The row, where no parameter is `NULL`: every column is `NOT NULL`. -/
def Params.row? (p : Params) : Option LedgerRow := do
  let tenantId ← p.tenantId
  let instanceId ← p.instanceId
  let sequenceId ← p.sequenceId
  let previousHash ← p.previousHash
  let currentHash ← p.currentHash
  let signature ← p.signature
  let keyId ← p.keyId
  let protocolHash ← p.protocolHash
  let fromState ← p.fromState
  let toState ← p.toState
  let modelVersion ← p.modelVersion
  let agentVersion ← p.agentVersion
  let policyVersion ← p.policyVersion
  let metadataJson ← p.metadataJson
  let proofJson ← p.proofJson
  let schemaVersion ← p.schemaVersion
  let timestamp ← p.timestamp
  some
    { tenantId := tenantId, instanceId := instanceId, sequenceId := sequenceId, previousHash := previousHash
      currentHash := currentHash, signature := signature, keyId := keyId, protocolHash := protocolHash
      fromState := fromState, toState := toState, actor := "system", inputHash := "", outputHash := ""
      modelVersion := modelVersion, agentVersion := agentVersion, policyVersion := policyVersion
      metadataJson := metadataJson, proofJson := proofJson, schemaVersion := schemaVersion, version := 1
      timestamp := timestamp }

/-- The database accepts the row. -/
def Accepted (ledger : List LedgerRow) (p : Params) : Prop := ∃ r, p.row? = some r ∧ Admissible ledger r

/-- `INSERT INTO ledger`. -/
def insertRow (ledger : List LedgerRow) (p : Params) : Except Err (List LedgerRow) :=
  match p.row? with
  | none => .error .integrityError
  | some r => if Admissible ledger r then .ok (ledger ++ [r]) else .error .integrityError

/-! ### The connection -/

/-- A storage's connection: what is committed, and what the connection sees,
its uncommitted writes included. -/
structure Store where
  committed : Db
  working : Db

namespace Store

/-- `SQLiteStorage(db_path)`. -/
def opened (db : Db) : Store := ⟨db, db⟩

/-- `commit()`. -/
def commit (s : Store) : Store := ⟨s.working, s.working⟩

/-- `rollback()`. -/
def rollback (s : Store) : Store := ⟨s.committed, s.committed⟩

/-- A change and the commit after it. -/
def committing (s : Store) (change : Db → Db) : Store := ⟨change s.working, change s.working⟩

/-- `append_ledger_entry`. -/
def appendLedgerEntry (realText : Body → String) (s : Store) (now : String) (proofDict : Body) :
    Except Err Body × Store :=
  match prepare realText s.working now proofDict with
  | .error e => (.error e, s)
  | .ok (h, instances) =>
    let ensured : Store := ⟨s.committed, { s.working with instances := instances }⟩
    match params realText proofDict h with
    | .error e => (.error e, ensured)
    | .ok p =>
      match insertRow s.working.ledger p with
      | .error e => (.error e, ensured.rollback)
      | .ok ledger => (.ok h.sequenceId, ensured.committing fun db => { db with ledger := ledger })

/-- `record_transition`, which returns the row it read back. -/
def recordTransition (s : Store) (now : String) (a : Concurrent.TransitionArgs) : Except PyErr LedgerRow × Store :=
  let call := Concurrent.Call.transition a
  let instances :=
    ProvableAi.ensureInstance s.working.instances a.instanceId a.protocolHash a.toState defaultTenant now
  let ensured : Store := ⟨s.committed, { s.working with instances := instances }⟩
  let sequenceId := maxSequenceId s.working.ledger defaultTenant a.instanceId + 1
  match ProvableAi.validateChainIntegrity s.working.ledger a.instanceId sequenceId a.previousHash defaultTenant with
  | .error e => (.error e, ensured)
  | .ok _ =>
    match insertLedger s.working.ledger (call.row now sequenceId) with
    | .error e => (.error e, ensured.rollback)
    | .ok ledger => (.ok (call.row now sequenceId), ensured.committing fun db => { db with ledger := ledger })

end Store

/-- A call of a writing method. -/
inductive Op where
  | appendLedgerEntry (now : String) (proofDict : Body)
  | recordTransition (now : String) (a : Concurrent.TransitionArgs)
  | addApprovedModel (now modelVersion modelName : String)
  | addApprovedAgent (now agentVersion agentName : String)
  | addApprovedPolicy (now policyVersion policyName : String)
  | deactivatePolicy (policyVersion : String)
  | registerProtocol (now protocolHash : String) (spec : Json)
  | freezeInstance (instanceId tenantId : String)

/-- The storage after a call. -/
def Op.run (realText : Body → String) (s : Store) : Op → Store
  | appendLedgerEntry now d => (s.appendLedgerEntry realText now d).2
  | recordTransition now a => (s.recordTransition now a).2
  | addApprovedModel now v n => s.committing fun db => db.addApprovedModel now v n
  | addApprovedAgent now v n => s.committing fun db => db.addApprovedAgent now v n
  | addApprovedPolicy now v n => s.committing fun db => db.addApprovedPolicy now v n
  | deactivatePolicy v => s.committing fun db => db.deactivatePolicy v
  | registerProtocol now h spec =>
    -- a protocol that is there is only looked up
    if s.working.protocols.any fun r => r.protocolHash = h then s
    else s.committing fun db => db.registerProtocol now h spec
  | freezeInstance i t => s.committing fun db => db.freezeInstance i t

/-- The storage after a list of calls. -/
def runOps (realText : Body → String) (s : Store) (ops : List Op) : Store := ops.foldl (Op.run realText) s

/-- The tables the claim is about, as they are committed. -/
def Store.tables (s : Store) : List LedgerRow × List InstanceRow := (s.committed.ledger, s.committed.instances)

/-! ### What the connection may see beyond what is committed -/

/-- The connection sees what is committed, but for the rows of `instances`. -/
def Store.OnlyInstances (s : Store) : Prop := s.working = { s.committed with instances := s.working.instances }

/-- A row of `instances` is pending. -/
def Store.Pending (s : Store) : Prop := s.working.instances ≠ s.committed.instances

variable {realText : Body → String}

theorem Store.OnlyInstances.ensured {s : Store} (h : s.OnlyInstances) (is : List InstanceRow) :
    Store.OnlyInstances ⟨s.committed, { s.working with instances := is }⟩ := by
  have hw : s.working = _ := h
  rw [Store.OnlyInstances]
  dsimp only
  rw [hw]

theorem Store.OnlyInstances.same (db : Db) : Store.OnlyInstances ⟨db, db⟩ := rfl

theorem Store.OnlyInstances.append {s : Store} (h : s.OnlyInstances) (now : String) (d : Body) :
    (s.appendLedgerEntry realText now d).2.OnlyInstances := by
  rw [Store.appendLedgerEntry]
  split
  · exact h
  · dsimp only
    split
    · exact h.ensured _
    · split
      · exact .same _
      · exact .same _

theorem Store.OnlyInstances.transition {s : Store} (h : s.OnlyInstances) (now : String)
    (a : Concurrent.TransitionArgs) : (s.recordTransition now a).2.OnlyInstances := by
  rw [Store.recordTransition]
  dsimp only
  split
  · exact h.ensured _
  · split
    · exact .same _
    · exact .same _

/-- No call leaves anything but rows of `instances` pending. -/
theorem Store.OnlyInstances.run {s : Store} (h : s.OnlyInstances) (op : Op) : (op.run realText s).OnlyInstances := by
  cases op with
  | appendLedgerEntry now d => exact h.append now d
  | recordTransition now a => exact h.transition now a
  | registerProtocol now p spec =>
    rw [Op.run]
    split
    · exact h
    · exact .same _
  | _ => exact .same _

/-- The storages that calls lead to from an opened database. -/
def Store.Reachable (realText : Body → String) (s : Store) : Prop :=
  ∃ db ops, s = runOps realText (.opened db) ops

theorem Store.Reachable.onlyInstances {s : Store} (h : s.Reachable realText) : s.OnlyInstances := by
  obtain ⟨db, ops, rfl⟩ := h
  induction ops using List.reverseRecOn with
  | nil => exact .same db
  | append_singleton ops op ih =>
    rw [runOps, List.foldl_append]
    exact Store.OnlyInstances.run ih op

/-! ### What a failed call leaves -/

/-- The checks before `_ensure_instance` pass. -/
structure Ready (realText : Body → String) (db : Db) (d : Body) (h : Head) : Prop where
  head : Atomic.head d = .ok h
  signature : checkSignature h.signature = .ok ()
  chain : validateChainIntegrity realText db.ledger h = .ok ()

/-- The dict names a new instance: the four values of its row are there, none is
`NULL`, and no row has the instance's id. -/
def NewInstance (realText : Body → String) (db : Db) (h : Head) : Prop :=
  ∃ policy state t i p c, getOr h.governance "policy_version" (.str (.ofString "unknown")) = .ok policy ∧
    item h.decision "to_state" = .ok state ∧ bind realText h.tenantId = .ok (some t) ∧
    bind realText h.instanceId = .ok (some i) ∧ bind realText policy = .ok (some p) ∧
    bind realText state = .ok (some c) ∧ ∀ r ∈ db.instances, r.instanceId ≠ i

/-- The call adds the row of a new instance and then misses a key, or has a value
that cannot be bound. -/
def LeavesRow (realText : Body → String) (s : Store) (d : Body) : Prop :=
  ∃ h, Ready realText s.working d h ∧ NewInstance realText s.working h ∧ ∀ p, params realText d h ≠ .ok p

/-- The database refuses the row while a row of an earlier call is pending. -/
def DropsRow (realText : Body → String) (s : Store) (d : Body) : Prop :=
  ∃ h p, Ready realText s.working d h ∧ params realText d h = .ok p ∧ ¬ Accepted s.working.ledger p ∧ s.Pending

theorem ensureInstance_cases {instances is : List InstanceRow} {now : String} {t i : Option String} {p c : Body}
    (h : ensureInstance realText instances now t i p c = .ok is) :
    is = instances ∨ ∃ t' i' p' c', t = some t' ∧ i = some i' ∧ bind realText p = .ok (some p') ∧
      bind realText c = .ok (some c') ∧ (∀ r ∈ instances, r.instanceId ≠ i') ∧
      is = instances ++ [⟨t', i', p', c', 0, false, now⟩] := by
  rw [ensureInstance] at h
  split at h
  · exact .inl (Except.ok.inj h).symm
  · obtain ⟨p', hp, h⟩ := bind_eq_ok_iff.1 h
    obtain ⟨c', hc, h⟩ := bind_eq_ok_iff.1 h
    cases t with
    | none => exact .inl (Except.ok.inj h).symm
    | some t =>
      cases i with
      | none => exact .inl (Except.ok.inj h).symm
      | some i =>
        cases p' with
        | none => exact .inl (Except.ok.inj h).symm
        | some p' =>
          cases c' with
          | none => exact .inl (Except.ok.inj h).symm
          | some c' =>
            obtain rfl := Except.ok.inj h
            rw [insertInstance]
            split
            · exact .inl rfl
            · rename_i hany
              refine .inr ⟨t, i, p', c', rfl, rfl, hp, hc, fun r hr he => hany ?_, rfl⟩
              exact List.any_eq_true.2 ⟨r, hr, decide_eq_true he⟩

theorem ensureInstance_new {instances : List InstanceRow} {now : String} {t i p' c' : String} {p c : Body}
    (hp : bind realText p = .ok (some p')) (hc : bind realText c = .ok (some c'))
    (hnew : ∀ r ∈ instances, r.instanceId ≠ i) :
    ensureInstance realText instances now (some t) (some i) p c =
      .ok (instances ++ [⟨t, i, p', c', 0, false, now⟩]) := by
  have hsel : instances.find? (fun r => r.tenantId = t ∧ r.instanceId = i) = none := by
    refine List.find?_eq_none.2 fun r hr => ?_
    simp [hnew r hr]
  have hany : (instances.any fun r => r.instanceId = i) = false := by
    simpa using hnew
  rw [ensureInstance, select, Option.bind_some, Option.bind_some, hsel]
  simp only [hp, hc, ok_bind, insertInstance, hany, Bool.false_eq_true, if_false]

theorem prepare_ok_iff {db : Db} {now : String} {d : Body} {h : Head} {is : List InstanceRow} :
    prepare realText db now d = .ok (h, is) ↔ Ready realText db d h ∧
      ∃ policy state t i, getOr h.governance "policy_version" (.str (.ofString "unknown")) = .ok policy ∧
        item h.decision "to_state" = .ok state ∧ bind realText h.tenantId = .ok t ∧
        bind realText h.instanceId = .ok i ∧
        ensureInstance realText db.instances now t i policy state = .ok is := by
  simp only [prepare, bind_eq_ok_iff]
  constructor
  · rintro ⟨h', hh, u, hs, u', hv, policy, hp, state, hc, t, ht, i, hi, is', his, heq⟩
    obtain ⟨rfl, rfl⟩ := Prod.mk.inj (Except.ok.inj heq)
    exact ⟨⟨hh, hs, hv⟩, policy, state, t, i, hp, hc, ht, hi, his⟩
  · rintro ⟨⟨hh, hs, hv⟩, policy, state, t, i, hp, hc, ht, hi, his⟩
    exact ⟨h, hh, (), hs, (), hv, policy, hp, state, hc, t, ht, i, hi, is, his, rfl⟩

/-- A call that gets past `_ensure_instance` added a row exactly if the instance
is new. -/
theorem prepare_adds_iff {db : Db} {now : String} {d : Body} {h : Head} {is : List InstanceRow}
    (hp : prepare realText db now d = .ok (h, is)) : is ≠ db.instances ↔ NewInstance realText db h := by
  obtain ⟨-, policy, state, t, i, hpol, hst, ht, hi, his⟩ := prepare_ok_iff.1 hp
  constructor
  · intro hne
    obtain rfl | ⟨t', i', p', c', rfl, rfl, hp', hc', hnew, -⟩ := ensureInstance_cases his
    · exact absurd rfl hne
    · exact ⟨policy, state, t', i', p', c', hpol, hst, ht, hi, hp', hc', hnew⟩
  · rintro ⟨policy', state', t', i', p', c', hpol', hst', ht', hi', hp', hc', hnew⟩
    obtain rfl := Except.ok.inj (hpol.symm.trans hpol')
    obtain rfl := Except.ok.inj (hst.symm.trans hst')
    obtain rfl := Except.ok.inj (ht.symm.trans ht')
    obtain rfl := Except.ok.inj (hi.symm.trans hi')
    rw [ensureInstance_new hp' hc' hnew] at his
    obtain rfl := Except.ok.inj his
    simp

theorem ensureInstance_ok {instances : List InstanceRow} {t i p' c' : Option String} {p c : Body}
    (hp : bind realText p = .ok p') (hc : bind realText c = .ok c') (now : String) :
    ∃ is, ensureInstance realText instances now t i p c = .ok is := by
  rw [ensureInstance]
  split
  · exact ⟨_, rfl⟩
  · rw [hp, hc, ok_bind, ok_bind]
    split
    · exact ⟨_, rfl⟩
    · exact ⟨_, rfl⟩

/-- Parameters that can be bound are bound by `_ensure_instance` too. -/
theorem prepare_of_params {db : Db} {now : String} {d : Body} {h : Head} {p : Params}
    (hr : Ready realText db d h) (hp : params realText d h = .ok p) :
    ∃ is, prepare realText db now d = .ok (h, is) := by
  rw [params] at hp
  split at hp
  · cases hp
  · simp only [bind_eq_ok_iff] at hp
    obtain ⟨-, -, -, -, -, -, -, -, policy, hpol, -, -, state, hst, -, -, -, -, -, -, -, -, -, -, t, ht, i, hi,
      -, -, -, -, -, -, -, -, -, -, p', hp', -, -, c', hc', -⟩ := hp
    obtain ⟨is, his⟩ := @ensureInstance_ok _ db.instances t i _ _ _ _ hp' hc' now
    exact ⟨is, prepare_ok_iff.2 ⟨hr, policy, state, t, i, hpol, hst, ht, hi, his⟩⟩

/-- A call on a new instance gets past `_ensure_instance`. -/
theorem prepare_of_new {db : Db} {d : Body} {h : Head} (hr : Ready realText db d h)
    (hn : NewInstance realText db h) (now : String) : ∃ is, prepare realText db now d = .ok (h, is) := by
  obtain ⟨policy, state, t, i, p', c', hpol, hst, ht, hi, hp', hc', hnew⟩ := hn
  exact ⟨_, prepare_ok_iff.2 ⟨hr, policy, state, _, _, hpol, hst, ht, hi, ensureInstance_new hp' hc' hnew⟩⟩

theorem Ready.unique {db : Db} {d : Body} {h h' : Head} (hr : Ready realText db d h) (hr' : Ready realText db d h') :
    h = h' := Except.ok.inj (hr.head.symm.trans hr'.head)

/-- A call that raised stopped before `_ensure_instance`, or missed a key or a
type after it, or was refused by the database. -/
theorem append_raises {s : Store} {now : String} {d : Body} {e : Err}
    (he : (s.appendLedgerEntry realText now d).1 = .error e) :
    ((∀ h is, prepare realText s.working now d ≠ .ok (h, is)) ∧ (s.appendLedgerEntry realText now d).2 = s) ∨
    (∃ h is, prepare realText s.working now d = .ok (h, is) ∧ (∀ p, params realText d h ≠ .ok p) ∧
      (s.appendLedgerEntry realText now d).2 = ⟨s.committed, { s.working with instances := is }⟩) ∨
    (∃ h is p, prepare realText s.working now d = .ok (h, is) ∧ params realText d h = .ok p ∧
      ¬ Accepted s.working.ledger p ∧ (s.appendLedgerEntry realText now d).2 = s.rollback) := by
  rw [Store.appendLedgerEntry] at he ⊢
  cases hprep : prepare realText s.working now d with
  | error e' => exact .inl ⟨fun h is hc => (nomatch hc), rfl⟩
  | ok r =>
    obtain ⟨h, is⟩ := r
    rw [hprep] at he
    dsimp only at he ⊢
    cases hpar : params realText d h with
    | error e' => exact .inr (.inl ⟨h, is, rfl, fun p hc => (nomatch hpar.symm.trans hc), rfl⟩)
    | ok p =>
      rw [hpar] at he
      dsimp only at he ⊢
      cases hins : insertRow s.working.ledger p with
      | ok l =>
        rw [hins] at he
        cases he
      | error e' =>
        refine .inr (.inr ⟨h, is, p, rfl, hpar, ?_, rfl⟩)
        rintro ⟨r, hr, ha⟩
        rw [insertRow, hr] at hins
        dsimp only at hins
        rw [if_pos ha] at hins
        cases hins

/-- An approval commits what the connection sees. -/
theorem tables_addApprovedModel (s : Store) : (runOps realText s [.addApprovedModel "" "" ""]).tables =
    (s.working.ledger, s.working.instances) := rfl

/-- Storages that see different instances are told apart by the next approval. -/
theorem instances_eq_of_tables {s s' : Store}
    (h : ∀ later, (runOps realText s' later).tables = (runOps realText s later).tables) :
    s'.working.instances = s.working.instances := by
  have h1 := h [.addApprovedModel "" "" ""]
  rw [tables_addApprovedModel, tables_addApprovedModel] at h1
  exact congrArg Prod.snd h1

/-- A call that leaves the row of a new instance raises. -/
theorem LeavesRow.raises {s : Store} {d : Body} (h : LeavesRow realText s d) (now : String) :
    ∃ e is, s.appendLedgerEntry realText now d = (.error e, ⟨s.committed, { s.working with instances := is }⟩) ∧
      is ≠ s.working.instances := by
  obtain ⟨hd, hr, hnew, hno⟩ := h
  obtain ⟨is, his⟩ := prepare_of_new hr hnew now
  cases hp : params realText d hd with
  | ok p => exact absurd hp (hno p)
  | error e =>
    refine ⟨e, is, ?_, (prepare_adds_iff his).2 hnew⟩
    simp only [Store.appendLedgerEntry, his, hp]

/-- The first proof of an instance, its `current_hash` missing. -/
def hashlessDict : Body :=
  .obj [(.ofString "instance_id", .str (.ofString "loan")),
    (.ofString "decision", .obj [(.ofString "from_state", .str (.ofString "a")), (.ofString "to_state", .str (.ofString "b"))]),
    (.ofString "decision_context", .obj []),
    (.ofString "governance", .obj [(.ofString "policy_version", .str (.ofString "p"))]),
    (.ofString "ledger", .obj [(.ofString "sequence_id", .int 1), (.ofString "previous_hash", .str (.ofString genesisHash))]),
    (.ofString "signature", .obj [(.ofString "value", .str (List.replicate 128 (.char 'a')))])]

/-- What is read of it. -/
def hashlessHead : Head where
  ledger := .obj [(.ofString "sequence_id", .int 1), (.ofString "previous_hash", .str (.ofString genesisHash))]
  decision := .obj [(.ofString "from_state", .str (.ofString "a")), (.ofString "to_state", .str (.ofString "b"))]
  decisionContext := .obj []
  governance := .obj [(.ofString "policy_version", .str (.ofString "p"))]
  signature := .obj [(.ofString "value", .str (List.replicate 128 (.char 'a')))]
  instanceId := .str (.ofString "loan")
  sequenceId := .int 1
  previousHash := .str (.ofString genesisHash)
  tenantId := .str (.ofString defaultTenant)

theorem bind_ofString (s : String) : bind realText (.str (.ofString s)) = .ok (some s) := by
  rw [bind, PyStr.toString?_ofString]

theorem hashlessDict_ready : Ready realText .fresh hashlessDict hashlessHead where
  head := by rfl
  signature := by
    have hv : item hashlessHead.signature "value" = .ok (.str (List.replicate 128 (.char 'a'))) := by rfl
    have hk : getOr hashlessHead.signature "key_id" (.str (.ofString "unknown")) = .ok (.str (.ofString "unknown")) := by
      rfl
    rw [checkSignature, hv, ok_bind, hk, ok_bind, len, List.length_replicate]
    rfl
  chain := by
    have hi : bind realText hashlessHead.instanceId = .ok (some "loan") := bind_ofString "loan"
    have ht : bind realText hashlessHead.tenantId = .ok (some defaultTenant) := bind_ofString defaultTenant
    have hc : compare hashlessHead.sequenceId 1 = some (false, false) := by rfl
    have hp : hashlessHead.previousHash = .str (.ofString genesisHash) := rfl
    have hexp : expected [] (some defaultTenant) (some "loan") = (1, genesisHash) := by rfl
    rw [validateChainIntegrity, hi, ht, ok_bind, ok_bind]
    simp only [select, Option.bind_some, Db.fresh, List.find?_nil, hexp, hc, hp, if_true]

theorem hashlessDict_leaves : LeavesRow realText (.opened .fresh) hashlessDict := by
  refine ⟨hashlessHead, hashlessDict_ready, ?_, ?_⟩
  · refine ⟨.str (.ofString "p"), .str (.ofString "b"), defaultTenant, "loan", "p", "b", by rfl, by rfl,
      bind_ofString _, bind_ofString _, bind_ofString _, bind_ofString _, ?_⟩
    intro r hr
    cases hr
  · intro p hp
    have hmd : getOr hashlessHead.decisionContext "metadata" (.obj []) = .ok (.obj []) := by rfl
    have hno : item hashlessHead.ledger "current_hash" = .error (.keyError "current_hash") := by rfl
    rw [params] at hp
    split at hp
    · cases hp
    · simp only [bind_eq_ok_iff, hno] at hp
      obtain ⟨-, -, x, hx, -⟩ := hp
      cases hx

/-- The call on a new database. -/
def hashlessCall : Except Err Body × Store :=
  (Store.opened .fresh).appendLedgerEntry (fun _ => "") "2026-01-01T00:00:00Z" hashlessDict

/-- The dict is one of the proofs that the typed model takes. -/
structure Reads (d : Body) (p : ProofDict) (h : Head) : Prop where
  head : Atomic.head d = .ok h
  instanceId : h.instanceId = .str (.ofString p.instanceId)
  sequenceId : h.sequenceId = .int p.sequenceId
  sequenceId_lt : -2 ^ 63 ≤ p.sequenceId ∧ p.sequenceId < 2 ^ 63
  previousHash : h.previousHash = .str (.ofString p.previousHash)
  tenantId : h.tenantId = .str (.ofString p.tenant)
  value : item h.signature "value" = .ok (.str (.ofString p.signatureValue))
  keyId : item h.signature "key_id" = .ok (.str (.ofString p.keyId))
  currentHash : item h.ledger "current_hash" = .ok (.str (.ofString p.currentHash))
  timestamp : item h.ledger "timestamp" = .ok (.str (.ofString p.timestamp))
  fromState : item h.decision "from_state" = .ok (.str (.ofString p.fromState))
  toState : item h.decision "to_state" = .ok (.str (.ofString p.toState))
  modelVersion : item h.governance "model_version" = .ok (.str (.ofString p.modelVersion))
  agentVersion : item h.governance "agent_version" = .ok (.str (.ofString p.agentVersion))
  policyVersion : item h.governance "policy_version" = .ok (.str (.ofString p.policyVersion))
  metadata : ∃ m, getOr h.decisionContext "metadata" (.obj []) = .ok m ∧ jsonText m = .ofString (dumps p.metadata)
  type : getOr d "type" (.str (.ofString "zorynex-proof-v1")) = .ok (.str (.ofString (p.type.getD "zorynex-proof-v1")))
  short : tooLong d = false
  json : jsonText d = .ofString (dumps p.json)

/-- A key that is there is what `get` returns. -/
theorem getOr_of_item {v x : Body} {k : String} (h : item v k = .ok x) (default : Body) : getOr v k default = .ok x := by
  cases v with
  | obj kvs =>
    rw [item] at h
    rw [getOr]
    cases hl : kvs.lookup (.ofString k) with
    | none => rw [hl] at h; cases h
    | some y => rw [hl] at h; rw [Option.getD_some]; exact h
  | _ => cases h

/-- Dicts of the schema's types have parameters, and these are the row. -/
theorem Reads.params {d : Body} {p : ProofDict} {h : Head} (hr : Reads d p h) :
    ∃ q, Atomic.params realText d h = .ok q ∧ q.row? = some p.row := by
  obtain ⟨m, hm, hmt⟩ := hr.metadata
  have hseq : bindSequence h.sequenceId = .ok (some p.sequenceId) := by
    rw [hr.sequenceId, bindSequence, if_pos hr.sequenceId_lt]
  refine ⟨⟨p.tenant, p.instanceId, p.sequenceId, p.previousHash, p.currentHash, p.signatureValue, p.keyId,
    p.policyVersion, p.fromState, p.toState, p.modelVersion, p.agentVersion, p.policyVersion, dumps p.metadata,
    dumps p.json, p.type.getD "zorynex-proof-v1", p.timestamp⟩, ?_, rfl⟩
  rw [Atomic.params, hr.short, hm, hr.currentHash, hr.value, hr.keyId, getOr_of_item hr.policyVersion, hr.fromState,
    hr.toState, hr.modelVersion, hr.agentVersion, hr.policyVersion, hr.type, hr.timestamp]
  simp only [Bool.false_eq_true, if_false, ok_bind, hseq, hr.tenantId, hr.instanceId, hr.previousHash, hmt, hr.json,
    bind_ofString]

/-- The check of the chain is the one of the typed model. -/
theorem Reads.validateChainIntegrity {d : Body} {p : ProofDict} {h : Head} (hr : Reads d p h)
    (ledger : List LedgerRow) : Atomic.validateChainIntegrity realText ledger h = .ok () ↔
      ProvableAi.validateChainIntegrity ledger p.instanceId p.sequenceId p.previousHash p.tenant = .ok () := by
  have hexp : expected ledger (some p.tenant) (some p.instanceId) = (maxSequenceId ledger p.tenant p.instanceId + 1,
      ((lastRow ledger p.tenant p.instanceId).map LedgerRow.currentHash).getD genesisHash) := by
    rw [expected, select, Option.bind_some, Option.bind_some, maxSequenceId]
    cases lastRow ledger p.tenant p.instanceId <;> rfl
  have htext : ∀ s t : String, PyStr.ofString s = .ofString t ↔ s = t := by
    intro s t
    refine ⟨fun h => ?_, congrArg _⟩
    have := congrArg PyStr.toString? h
    rw [PyStr.toString?_ofString, PyStr.toString?_ofString] at this
    exact Option.some.inj this
  rw [Atomic.validateChainIntegrity, ProvableAi.validateChainIntegrity, checkConflict, checkLink]
  simp only [hr.instanceId, hr.tenantId, bind_ofString, ok_bind, select, Option.bind_some]
  cases ledger.find? fun r => r.instanceId = p.instanceId ∧ r.tenantId ≠ p.tenant with
  | some r => simp
  | none =>
    simp only [hexp, hr.sequenceId, hr.previousHash, compare]
    by_cases h1 : p.sequenceId < maxSequenceId ledger p.tenant p.instanceId + 1
    · simp [h1]
    · by_cases h2 : p.sequenceId > maxSequenceId ledger p.tenant p.instanceId + 1
      · simp [h1, h2]
      · by_cases h3 : p.previousHash = ((lastRow ledger p.tenant p.instanceId).map LedgerRow.currentHash).getD genesisHash
        · simp [h1, h2, h3]
        · simp [h1, h2, h3, htext]

theorem ensureInstance_typed (p : ProofDict) (is : List InstanceRow) (now : String) : Atomic.ensureInstance realText is now (some p.tenant) (some p.instanceId)
      (.str (.ofString p.policyVersion)) (.str (.ofString p.toState)) =
        .ok (ProvableAi.ensureInstance is p.instanceId p.policyVersion p.toState p.tenant now) := by
  rw [Atomic.ensureInstance, ProvableAi.ensureInstance, hasInstance, select, Option.bind_some, Option.bind_some]
  cases hf : is.find? fun r => r.tenantId = p.tenant ∧ r.instanceId = p.instanceId with
  | some r =>
    have hany : (is.any fun r => r.tenantId = p.tenant ∧ r.instanceId = p.instanceId) = true :=
      List.any_eq_true.2 ⟨r, List.mem_of_find?_eq_some hf, by simpa using List.find?_some hf⟩
    rw [hany, if_pos rfl]
  | none =>
    have hany : (is.any fun r => r.tenantId = p.tenant ∧ r.instanceId = p.instanceId) = false :=
      List.any_eq_false.2 fun r hm => List.find?_eq_none.1 hf r hm
    rw [hany, bind_ofString, bind_ofString]
    rfl

theorem Reads.checkSignature {d : Body} {p : ProofDict} {h : Head} (hr : Reads d p h) :
    Atomic.checkSignature h.signature = .ok () ↔ p.signatureValue.length = 128 := by
  have hlen : len (.str (.ofString p.signatureValue)) = some p.signatureValue.length := by
    rw [len, PyStr.ofString, List.length_map, String.length_toList]
  rw [Atomic.checkSignature, hr.value, ok_bind, getOr_of_item hr.keyId, ok_bind, hlen]
  by_cases h128 : p.signatureValue.length = 128
  · rw [h128]
    exact iff_of_true rfl rfl
  · refine iff_of_false (fun hok => h128 ?_) h128
    split at hok
    · rename_i heq
      exact Option.some.inj heq
    · cases hok
    · cases hok

theorem Reads.ready_iff {d : Body} {p : ProofDict} {h : Head} (hr : Reads d p h) (db : Db) :
    Ready realText db d h ↔ p.signatureValue.length = 128 ∧
      ProvableAi.validateChainIntegrity db.ledger p.instanceId p.sequenceId p.previousHash p.tenant = .ok () := by
  have hchain : Atomic.validateChainIntegrity realText db.ledger h = .ok () ↔ _ := hr.validateChainIntegrity db.ledger
  rw [← hr.checkSignature, ← hchain]
  exact ⟨fun h => ⟨h.signature, h.chain⟩, fun h => ⟨hr.head, h.1, h.2⟩⟩

/-- **On the schema's dicts this is the typed model**: with nothing pending, the
storage after the call is the typed one, nothing pending again. -/
theorem appendLedgerEntry_typed {d : Body} {p : ProofDict} {h : Head} (hr : Reads d p h) (db : Db) (now : String) :
    ((Store.opened db).appendLedgerEntry realText now d).2 = .opened (db.appendLedgerEntry now p).2 := by
  by_cases hready : Ready realText db d h
  · obtain ⟨q, hq, hrow⟩ : ∃ q, Atomic.params realText d h = .ok q ∧ q.row? = some p.row := hr.params
    obtain ⟨hsig, hval⟩ := (hr.ready_iff db).1 hready
    have hprep : prepare realText db now d = .ok (h, ProvableAi.ensureInstance db.instances p.instanceId
        p.policyVersion p.toState p.tenant now) := by
      refine prepare_ok_iff.2 ⟨hready, _, _, some p.tenant, some p.instanceId, getOr_of_item hr.policyVersion _,
        hr.toState, ?_, ?_, ensureInstance_typed p db.instances now⟩
      · rw [hr.tenantId, bind_ofString]
      · rw [hr.instanceId, bind_ofString]
    have hprep : prepare realText (Store.opened db).working now d = _ := hprep
    rw [Store.appendLedgerEntry, hprep]
    simp only [hq, insertRow, hrow]
    by_cases ha : Admissible db.ledger p.row
    · rw [db.appendLedgerEntry_of_appendable now ⟨hsig, hval, ha⟩]
      have ha : Admissible (Store.opened db).working.ledger p.row := ha
      rw [if_pos ha]
      rfl
    · obtain ⟨e, he⟩ := db.appendLedgerEntry_of_not now fun h => ha h.2.2
      have ha : ¬ Admissible (Store.opened db).working.ledger p.row := ha
      rw [he, if_neg ha]
      rfl
  · obtain ⟨e, he⟩ := db.appendLedgerEntry_of_not now fun h => hready ((hr.ready_iff db).2 ⟨h.1, h.2.1⟩)
    rw [he, Store.appendLedgerEntry]
    cases hprep : prepare realText (Store.opened db).working now d with
    | error e => rfl
    | ok r =>
      obtain ⟨h', is⟩ := r
      have hr' := (prepare_ok_iff.1 hprep).1
      obtain rfl := Except.ok.inj (hr.head.symm.trans hr'.head)
      exact absurd hr' hready

end Atomic
end ProvableAi
