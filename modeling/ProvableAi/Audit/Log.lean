/-
# The verification audit log

`audit_log.py`: the table `verification_audit`, one row for each verification.
A row holds the hash of its own columns (`row_hash`), the chain hash before it
and its chain hash, `SHA-256` of the two; `verify_chain` walks a tenant's rows in
the order of their ids and recomputes both.

`Intact` is what the walk checks, `verifyChain_valid_iff` that it checks nothing
else: neither `prev_chain_hash` nor the sequence numbers.  The last chain hash
of an intact list is the fold of the rows' contents (`Intact.foldl`), so it
determines them (`latestChainHash_commits`).

`LogInv` is what every log that `record` alone has written satisfies: ids ascend,
and each tenant's rows are intact and numbered `1, 2, …`.
-/

import ProvableAi.Audit.Body
import ProvableAi.Schema
import ProvableAi.Lib.Autoincrement
import ProvableAi.Lib.HashChain

namespace ProvableAi
namespace Audit

open HashChain

/-! ### Rows and their hashes -/

/-- The columns that `_compute_row_hash` covers. -/
structure AuditContent where
  tenantId : String
  traceId : String
  instanceId : Option String
  sequenceId : Option ℤ
  sequenceNum : ℤ
  proofId : Option String
  verifiedAt : String
  result : String
  failureCode : Option String
  failureMsg : Option String
  keyId : Option String
  governanceJson : Option String
  recordedAt : String
  deriving DecidableEq

/-- `VerificationAuditEntry`. -/
structure VerificationAuditEntry extends AuditContent where
  rowHash : String
  prevChainHash : String
  chainHash : String
  deriving DecidableEq

/-- A row of `verification_audit`. -/
structure AuditRow extends VerificationAuditEntry where
  id : ℤ
  deriving DecidableEq

/-- An `int` or `None` as JSON. -/
def ofOptInt : Option ℤ → Json
  | none => .null
  | some n => .int n

/-- The dict that `_compute_row_hash` writes. -/
def AuditContent.toJson (c : AuditContent) : Json :=
  .obj [("tenant_id", .str c.tenantId), ("trace_id", .str c.traceId),
    ("instance_id", .ofOptStr c.instanceId), ("sequence_id", ofOptInt c.sequenceId),
    ("sequence_num", .int c.sequenceNum), ("proof_id", .ofOptStr c.proofId),
    ("verified_at", .str c.verifiedAt), ("result", .str c.result),
    ("failure_code", .ofOptStr c.failureCode), ("failure_msg", .ofOptStr c.failureMsg),
    ("key_id", .ofOptStr c.keyId), ("governance_json", .ofOptStr c.governanceJson),
    ("recorded_at", .str c.recordedAt)]

/-- `_compute_row_hash`, as bytes. -/
def AuditContent.digest (c : AuditContent) : Bytes := sha256 (utf8 (dumps c.toJson))

/-- `_compute_row_hash`. -/
def computeRowHash (c : AuditContent) : String := toHex c.digest

/-- `_compute_chain_hash`. -/
def computeChainHash (prevChainHash rowHash : String) : Except PyErr String :=
  match fromHex prevChainHash, fromHex rowHash with
  | some prev, some row => .ok (toHex (sha256 (prev ++ row)))
  | _, _ => .error (.valueError "non-hexadecimal number found in fromhex() arg")

/-! ### `verify_chain` -/

/-- `SELECT * … WHERE tenant_id=? ORDER BY id ASC`. -/
def tenantRows (table : List AuditRow) (tenantId : String) : List AuditRow :=
  (table.filter fun r => r.tenantId = tenantId).insertionSort fun r s => r.id ≤ s.id

/-- `ChainVerificationResult`. -/
structure ChainVerificationResult where
  valid : Bool
  totalRows : ℕ
  brokenAtId : Option ℤ
  failureMsg : Option String

/-- The loop of `verify_chain`; `total` is the number of rows. -/
def verifyRows (total : ℕ) : String → List AuditRow → Except PyErr ChainVerificationResult
  | _, [] => .ok ⟨true, total, none, none⟩
  | prevChainHash, row :: rest => do
    let expectedRowHash := computeRowHash row.toAuditContent
    let expectedChainHash ← computeChainHash prevChainHash expectedRowHash
    if row.rowHash ≠ expectedRowHash then
      .ok ⟨false, total, some row.id, some ("Row id=" ++ toString row.id ++ ": row_hash mismatch. " ++
        "Stored=" ++ slice 16 row.rowHash ++ "... Expected=" ++ slice 16 expectedRowHash ++ "...")⟩
    else if row.chainHash ≠ expectedChainHash then
      .ok ⟨false, total, some row.id, some ("Row id=" ++ toString row.id ++ ": chain_hash mismatch. " ++
        "Chain is broken at this point — data was modified.")⟩
    else verifyRows total row.chainHash rest

/-- `verify_chain`. -/
def verifyChain (table : List AuditRow) (tenantId : String) : Except PyErr ChainVerificationResult :=
  let rows := tenantRows table tenantId
  if rows = [] then .ok ⟨true, 0, none, none⟩ else verifyRows rows.length genesisHash rows

/-- `get_latest_chain_hash`. -/
def getLatestChainHash (table : List AuditRow) (tenantId : String) : String :=
  ((tenantRows table tenantId).getLast?.map fun r => r.chainHash).getD genesisHash

/-! ### What the walk checks -/

/-- The 32 zero bytes of `GENESIS_HASH`. -/
def genesisDigest : Bytes := List.replicate 32 0

theorem genesisHash_eq : genesisHash = toHex genesisDigest := by decide

/-- The chain hash after a row, as bytes. -/
def linkDigest (prev : Bytes) (c : AuditContent) : Bytes := sha256 (prev ++ c.digest)

theorem computeChainHash_hex (prev : Bytes) (c : AuditContent) :
    computeChainHash (toHex prev) (computeRowHash c) = .ok (toHex (linkDigest prev c)) := by
  rw [computeChainHash, computeRowHash, fromHex_toHex, fromHex_toHex]
  rfl

/-- Every row carries its recomputed hash and, from the chain hash `prev` on, its
recomputed chain hash. -/
def Intact : Bytes → List AuditRow → Prop
  | _, [] => True
  | prev, r :: rs =>
    r.rowHash = computeRowHash r.toAuditContent ∧
      r.chainHash = toHex (linkDigest prev r.toAuditContent) ∧ Intact (linkDigest prev r.toAuditContent) rs

/-- The hashed columns of rows. -/
def contents (rows : List AuditRow) : List AuditContent := rows.map fun r => r.toAuditContent

theorem verifyRows_valid_iff {total : ℕ} {rows : List AuditRow} : ∀ {prev : Bytes},
    ∃ res, verifyRows total (toHex prev) rows = .ok res ∧ res.totalRows = total ∧
      (res.valid = true ↔ Intact prev rows) := by
  induction rows with
  | nil => intro prev; exact ⟨_, rfl, rfl, by simp [Intact]⟩
  | cons r rows ih =>
    intro prev
    rw [verifyRows, computeChainHash_hex, ok_bind]
    by_cases hr : r.rowHash = computeRowHash r.toAuditContent
    · by_cases hc : r.chainHash = toHex (linkDigest prev r.toAuditContent)
      · rw [if_neg (not_not.2 hr), if_neg (not_not.2 hc), hc]
        obtain ⟨res, hres, htot, hval⟩ := ih
        exact ⟨res, hres, htot, by rw [hval, Intact]; tauto⟩
      · rw [if_neg (not_not.2 hr), if_pos hc]
        exact ⟨_, rfl, rfl, by simp [Intact, hc]⟩
    · rw [if_pos hr]
      exact ⟨_, rfl, rfl, by simp [Intact, hr]⟩

/-- **`verify_chain` returns**, and finds a tenant's rows valid exactly if they
are intact from the genesis hash on. -/
theorem verifyChain_valid_iff (table : List AuditRow) (t : String) :
    ∃ res, verifyChain table t = .ok res ∧ res.totalRows = (tenantRows table t).length ∧
      (res.valid = true ↔ Intact genesisDigest (tenantRows table t)) := by
  unfold verifyChain
  by_cases h : tenantRows table t = []
  · simp [h, Intact]
  · simp only [if_neg h, genesisHash_eq]
    exact verifyRows_valid_iff

theorem intact_append {prev : Bytes} {rows more : List AuditRow} :
    Intact prev (rows ++ more) ↔
      Intact prev rows ∧ Intact ((contents rows).foldl linkDigest prev) more := by
  induction rows generalizing prev with
  | nil => simp [Intact, contents]
  | cons r rows ih =>
    rw [List.cons_append, Intact, Intact, ih]
    simp only [contents, List.map_cons, List.foldl_cons]
    tauto

/-- The last chain hash of an intact list is the fold of its contents. -/
theorem Intact.foldl {rows : List AuditRow} {prev : Bytes} (h : Intact prev rows) :
    (rows.getLast?.map fun r => r.chainHash).getD (toHex prev) =
      toHex ((contents rows).foldl linkDigest prev) := by
  obtain rfl | ⟨rows, r, rfl⟩ := List.eq_nil_or_concat rows
  · rfl
  · rw [List.concat_eq_append] at h ⊢
    obtain ⟨-, -, hr, -⟩ := intact_append.1 h
    simp [contents, hr]

theorem getLatestChainHash_eq {table : List AuditRow} {t : String}
    (h : Intact genesisDigest (tenantRows table t)) :
    getLatestChainHash table t =
      toHex ((contents (tenantRows table t)).foldl linkDigest genesisDigest) := by
  rw [getLatestChainHash, genesisHash_eq]
  exact h.foldl

/-! ### The last chain hash commits to the rows -/

theorem AuditContent.toJson_wf (c : AuditContent) : c.toJson.wf = true := by
  have hstr : ∀ o, (Json.ofOptStr o).wf = true := fun o => by cases o <;> rfl
  have hint : ∀ o, (ofOptInt o).wf = true := fun o => by cases o <;> rfl
  rw [AuditContent.toJson, Json.wf_obj]
  constructor
  · simp only [List.map_cons, List.map_nil]
    decide
  · simp [hstr, hint, Json.wf]

/-- The text of a row determines its columns. -/
theorem AuditContent.eq_of_dumps {c d : AuditContent} (h : dumps c.toJson = dumps d.toJson) : c = d := by
  have hcanon := (dumps_inj c.toJson_wf d.toJson_wf).1 h
  have hget : ∀ k, (c.toJson.get? k).map Json.canon = (d.toJson.get? k).map Json.canon := fun k => by
    rw [← Json.get?_canon c.toJson_wf, hcanon, Json.get?_canon d.toJson_wf]
  have hstr : ∀ {a b : String}, (Json.str a).canon = (Json.str b).canon → a = b := fun h => Json.str.inj h
  have hopt : ∀ {a b : Option String}, (Json.ofOptStr a).canon = (Json.ofOptStr b).canon → a = b := by
    intro a b h
    cases a <;> cases b <;> simp [Json.ofOptStr] at h ⊢
    exact h
  have hnum : ∀ {a b : Option ℤ}, (ofOptInt a).canon = (ofOptInt b).canon → a = b := by
    intro a b h
    cases a <;> cases b <;> simp [ofOptInt] at h ⊢
    exact h
  obtain ⟨t, tr, i, s, n, p, v, r, fc, fm, k, g, ra⟩ := c
  obtain ⟨t', tr', i', s', n', p', v', r', fc', fm', k', g', ra'⟩ := d
  obtain rfl := hstr (Option.some.inj (hget "tenant_id"))
  obtain rfl := hstr (Option.some.inj (hget "trace_id"))
  obtain rfl := hopt (Option.some.inj (hget "instance_id"))
  obtain rfl := hnum (Option.some.inj (hget "sequence_id"))
  obtain rfl := Json.int.inj (Option.some.inj (hget "sequence_num"))
  obtain rfl := hopt (Option.some.inj (hget "proof_id"))
  obtain rfl := hstr (Option.some.inj (hget "verified_at"))
  obtain rfl := hstr (Option.some.inj (hget "result"))
  obtain rfl := hopt (Option.some.inj (hget "failure_code"))
  obtain rfl := hopt (Option.some.inj (hget "failure_msg"))
  obtain rfl := hopt (Option.some.inj (hget "key_id"))
  obtain rfl := hopt (Option.some.inj (hget "governance_json"))
  obtain rfl := hstr (Option.some.inj (hget "recorded_at"))
  rfl

/-- The byte strings that are hashed along a list of contents: the text of each
row, and each chain hash with the row hash after it. -/
def hashedInputs (cs : List AuditContent) : Set Bytes :=
  {b | ∃ c ∈ cs, b = utf8 (dumps c.toJson)} ∪
    {b | ∃ p ∈ steps linkDigest genesisDigest cs, b = p.1 ++ p.2.digest}

/-- No two of the byte strings have one SHA-256, and none has the digest that
stands for the start of a chain. -/
structure Collisionless (inputs : Set Bytes) : Prop where
  injOn : Set.InjOn sha256 inputs
  nonzero : ∀ b ∈ inputs, sha256 b ≠ genesisDigest

theorem Collisionless.mono {s t : Set Bytes} (h : Collisionless t) (hst : s ⊆ t) : Collisionless s :=
  ⟨h.injOn.mono hst, fun b hb => h.nonzero b (hst hb)⟩

@[simp] theorem AuditContent.digest_length (c : AuditContent) : c.digest.length = 32 := sha256_length _

theorem length_of_mem_steps {cs : List AuditContent} {p : Bytes × AuditContent}
    (hp : p ∈ steps linkDigest genesisDigest cs) : p.1.length = 32 :=
  steps_forall (P := fun d => d.length = 32) linkDigest rfl (fun _ _ => sha256_length _) hp

/-- A chain hash determines the chain hash before it and the row. -/
theorem linkDigest_inj {cs ds : List AuditContent}
    (hcf : Collisionless (hashedInputs cs ∪ hashedInputs ds)) {p q : Bytes × AuditContent}
    (hp : p ∈ steps linkDigest genesisDigest cs) (hq : q ∈ steps linkDigest genesisDigest ds)
    (h : linkDigest p.1 p.2 = linkDigest q.1 q.2) : p = q := by
  have happ : p.1 ++ p.2.digest = q.1 ++ q.2.digest :=
    hcf.injOn (.inl (.inr ⟨p, hp, rfl⟩)) (.inr (.inr ⟨q, hq, rfl⟩)) h
  obtain ⟨hprev, hdigest⟩ := List.append_inj happ
    ((length_of_mem_steps hp).trans (length_of_mem_steps hq).symm)
  have htext := hcf.injOn (.inl (.inl ⟨p.2, mem_of_mem_steps _ hp, rfl⟩))
    (.inr (.inl ⟨q.2, mem_of_mem_steps _ hq, rfl⟩)) hdigest
  exact Prod.ext hprev (AuditContent.eq_of_dumps (utf8_inj.1 htext))

/-- The digest of a list of contents determines it. -/
theorem contents_eq_of_foldl {cs ds : List AuditContent}
    (hcf : Collisionless (hashedInputs cs ∪ hashedInputs ds))
    (h : cs.foldl linkDigest genesisDigest = ds.foldl linkDigest genesisDigest) : cs = ds := by
  refine eq_of_foldl_eq (fun p hp q hq => linkDigest_inj hcf hp hq) (fun p hp => ?_) (fun p hp => ?_) h
  · exact hcf.nonzero _ (.inl (.inr ⟨p, hp, rfl⟩))
  · exact hcf.nonzero _ (.inr (.inr ⟨p, hp, rfl⟩))

/-- `verify_chain(tenant_id).valid`. -/
def ChainValid (table : List AuditRow) (t : String) : Prop :=
  ∃ res, verifyChain table t = .ok res ∧ res.valid = true

theorem chainValid_iff {table : List AuditRow} {t : String} :
    ChainValid table t ↔ Intact genesisDigest (tenantRows table t) := by
  obtain ⟨res, hres, -, hval⟩ := verifyChain_valid_iff table t
  rw [← hval]
  constructor
  · rintro ⟨res', hres', hv⟩
    obtain rfl := Except.ok.inj (hres.symm.trans hres')
    exact hv
  · exact fun hv => ⟨res, hres, hv⟩

/-- **The last chain hash commits to the tenant's rows.**  Two tables that
`verify_chain` accepts and whose last chain hashes agree have the tenant's rows
in the same number, with the same hashed columns row by row. -/
theorem latestChainHash_commits {table table' : List AuditRow} {t : String}
    (h : ChainValid table t) (h' : ChainValid table' t)
    (hlast : getLatestChainHash table t = getLatestChainHash table' t)
    (hcf : Collisionless (hashedInputs (contents (tenantRows table t)) ∪
      hashedInputs (contents (tenantRows table' t)))) :
    (tenantRows table t).length = (tenantRows table' t).length ∧
      List.Forall₂ (fun r s => r.toAuditContent = s.toAuditContent)
        (tenantRows table t) (tenantRows table' t) := by
  rw [getLatestChainHash_eq (chainValid_iff.1 h), getLatestChainHash_eq (chainValid_iff.1 h'),
    toHex_inj] at hlast
  have heq := contents_eq_of_foldl hcf hlast
  have hf : List.Forall₂ (fun r s => r.toAuditContent = s.toAuditContent)
      (tenantRows table t) (tenantRows table' t) := by
    rw [← List.forall₂_eq_eq_eq, contents, contents, List.forall₂_map_left_iff,
      List.forall₂_map_right_iff] at heq
    exact heq
  exact ⟨hf.length_eq, hf⟩

/-- A body that is no proof, verified for `acme`. -/
def sampleContent : AuditContent where
  tenantId := "acme"
  traceId := "t-1"
  instanceId := none
  sequenceId := none
  sequenceNum := 1
  proofId := none
  verifiedAt := "2026-01-01T00:00:00Z"
  result := "invalid"
  failureCode := some "SchemaValidationError"
  failureMsg := some "Proof schema invalid: 1 validation error for ProofV1"
  keyId := some "unknown"
  governanceJson := none
  recordedAt := "2026-01-01T00:00:00Z"

/-- The first row of a log with that content; id and `prev_chain_hash` are not
hashed. -/
def sampleRow (id : ℤ) (prevChainHash : String) : AuditRow where
  toAuditContent := sampleContent
  rowHash := computeRowHash sampleContent
  prevChainHash := prevChainHash
  chainHash := toHex (linkDigest genesisDigest sampleContent)
  id := id

/-- The row hash of the sample, as bytes. -/
def sampleDigest : Bytes :=
  [0xb5, 0x6f, 0x6c, 0xc0, 0x7d, 0xae, 0xe9, 0x13, 0xbf, 0xf2, 0x96, 0x42, 0xd3, 0xf2, 0xf2, 0xdb,
   0xf9, 0x93, 0x40, 0x24, 0xad, 0x45, 0x42, 0x09, 0xaf, 0x92, 0x20, 0x09, 0x39, 0xf9, 0xdc, 0x61]

theorem sampleContent_digest : sampleContent.digest = sampleDigest := sha256_dumps (by decide +kernel)

/-- Its chain hash as the first row, as bytes. -/
def sampleLink : Bytes :=
  [0xba, 0x8a, 0xa3, 0xa6, 0xc4, 0x02, 0x05, 0xf0, 0xf3, 0xe0, 0x6b, 0x79, 0x16, 0x23, 0xbb, 0xb8,
   0xde, 0x81, 0xf5, 0x3c, 0x29, 0x5e, 0xd8, 0x45, 0x12, 0x9e, 0x44, 0xc7, 0x6d, 0xf5, 0x77, 0xbe]

theorem linkDigest_sampleContent : linkDigest genesisDigest sampleContent = sampleLink := by
  rw [linkDigest, sampleContent_digest]
  decide +kernel

theorem tenantRows_sampleRow (id : ℤ) (prev : String) :
    tenantRows [sampleRow id prev] "acme" = [sampleRow id prev] := rfl

theorem sampleRow_chainValid (id : ℤ) (prev : String) : ChainValid [sampleRow id prev] "acme" := by
  rw [chainValid_iff, tenantRows_sampleRow]
  exact ⟨rfl, rfl, trivial⟩

theorem Collisionless.pair {a b : Bytes} (h : sha256 a ≠ sha256 b) (ha : sha256 a ≠ genesisDigest)
    (hb : sha256 b ≠ genesisDigest) : Collisionless {a, b} where
  injOn := by
    rintro x (rfl | rfl) y (rfl | rfl) hxy
    · rfl
    · exact absurd hxy h
    · exact absurd hxy.symm h
    · rfl
  nonzero := by
    rintro x (rfl | rfl)
    · exact ha
    · exact hb

theorem hashedInputs_singleton (c : AuditContent) :
    hashedInputs [c] = {utf8 (dumps c.toJson), genesisDigest ++ c.digest} := by
  ext b
  simp [hashedInputs, steps, or_comm]

theorem sampleContent_collisionless : Collisionless (hashedInputs [sampleContent]) := by
  have hrow : sha256 (utf8 (dumps sampleContent.toJson)) = sampleDigest := sampleContent_digest
  have hlink : sha256 (genesisDigest ++ sampleContent.digest) = sampleLink := linkDigest_sampleContent
  rw [hashedInputs_singleton]
  refine Collisionless.pair ?_ ?_ ?_
  · rw [hrow, hlink]; decide
  · rw [hrow]; decide
  · rw [hlink]; decide

/-- Two tables with one row each, under different ids and with different
`prev_chain_hash`: both are accepted, and their hashed columns agree. -/
theorem latestChainHash_commits_sample :
    sampleRow 1 genesisHash ≠ sampleRow 7 "" ∧
      (tenantRows [sampleRow 1 genesisHash] "acme").length = (tenantRows [sampleRow 7 ""] "acme").length ∧
      List.Forall₂ (fun r s => r.toAuditContent = s.toAuditContent)
        (tenantRows [sampleRow 1 genesisHash] "acme") (tenantRows [sampleRow 7 ""] "acme") := by
  refine ⟨fun h => ?_, latestChainHash_commits (sampleRow_chainValid 1 _) (sampleRow_chainValid 7 _) rfl ?_⟩
  · have hid : (1 : ℤ) = 7 := congrArg AuditRow.id h
    exact absurd hid (by decide)
  · rw [tenantRows_sampleRow, tenantRows_sampleRow]
    exact sampleContent_collisionless.mono (by simp [contents, sampleRow])

/-! ### `record` -/

/-- What `record` holds of a verification when it begins to read the log. -/
structure Event where
  tenantId : String
  traceId : String
  instanceId : Option PyStr
  sequenceId : Option ℤ
  proofId : Option PyStr
  verifiedAt : String
  valid : Bool
  failureCode : Option String
  failureMsg : Option String
  keyId : Option String
  governanceJson : Option String
  recordedAt : String

/-- A text that is to be encoded. -/
def encodable : Option PyStr → Except PyErr (Option String)
  | none => .ok none
  | some s =>
    match s.toString? with
    | some t => .ok (some t)
    | none => .error .unicodeEncodeError

/-- The columns that are hashed, once the texts are encoded. -/
def Event.content (e : Event) (sequenceNum : ℤ) : Except PyErr AuditContent := do
  let instanceId ← encodable e.instanceId
  let proofId ← encodable e.proofId
  .ok
    { tenantId := e.tenantId, traceId := e.traceId, instanceId := instanceId, sequenceId := e.sequenceId
      sequenceNum := sequenceNum, proofId := proofId, verifiedAt := e.verifiedAt
      result := if e.valid then "valid" else "invalid", failureCode := e.failureCode
      failureMsg := e.failureMsg, keyId := e.keyId, governanceJson := e.governanceJson
      recordedAt := e.recordedAt }

/-- The entry that `record` makes from the chain hash and the number it has read. -/
def Event.entry (e : Event) (prevChainHash : String) (sequenceNum : ℤ) :
    Except PyErr VerificationAuditEntry := do
  let content ← e.content sequenceNum
  let rowHash := computeRowHash content
  let chainHash ← computeChainHash prevChainHash rowHash
  .ok { content with rowHash := rowHash, prevChainHash := prevChainHash, chainHash := chainHash }

/-- `SELECT COALESCE(MAX(sequence_num), 0) … WHERE tenant_id=?`. -/
def maxSequenceNum (table : List AuditRow) (tenantId : String) : ℤ :=
  ((tenantRows table tenantId).foldl (fun m r => match m with
    | none => some r.sequenceNum
    | some k => some (if k < r.sequenceNum then r.sequenceNum else k)) none).getD 0

/-- The id that `AUTOINCREMENT` gives the next row. -/
def nextId (table : List AuditRow) : ℤ := table.foldl (fun m r => if m < r.id then r.id else m) 0 + 1

/-- A Python `int` that an `INTEGER` column takes. -/
def fitsInteger (n : ℤ) : Bool := -(2 ^ 63) ≤ n && n < 2 ^ 63

/-- `INSERT INTO verification_audit`: the parameters are bound, then
`UNIQUE(tenant_id, sequence_num)` is checked.  `sequence_num` counts rows and is
taken to fit its column. -/
def insertEntry (table : List AuditRow) (entry : VerificationAuditEntry) : Except PyErr (List AuditRow) :=
  if entry.sequenceId.any fun n => !fitsInteger n then .error .overflowError
  else if table.any fun r => r.tenantId = entry.tenantId ∧ r.sequenceNum = entry.sequenceNum then
    .error .integrityError
  else .ok (table ++ [{ entry with id := nextId table }])

/-- `record`, from the first read of the log on, with nothing between its
statements. -/
def recordEvent (table : List AuditRow) (e : Event) : Except PyErr (VerificationAuditEntry × List AuditRow) := do
  let prevChainHash := getLatestChainHash table e.tenantId
  let sequenceNum := maxSequenceNum table e.tenantId + 1
  let entry ← e.entry prevChainHash sequenceNum
  let table ← insertEntry table entry
  .ok (entry, table)

/-! ### Logs that `record` has written -/

/-- Ids ascend, and every tenant's rows are intact and numbered from `1` on. -/
structure LogInv (table : List AuditRow) : Prop where
  ids : table.Pairwise fun r s => r.id < s.id
  intact : ∀ t, Intact genesisDigest (tenantRows table t)
  numbered : ∀ t, (tenantRows table t).map (fun r => r.sequenceNum) =
    (List.range (tenantRows table t).length).map fun k : ℕ => (k : ℤ) + 1

theorem tenantRows_eq_filter {table : List AuditRow} (h : table.Pairwise fun r s => r.id < s.id) (t : String) :
    tenantRows table t = table.filter fun r => r.tenantId = t := Autoincrement.selectAsc_eq h _

theorem lt_nextId {table : List AuditRow} {r : AuditRow} (hr : r ∈ table) : r.id < nextId table :=
  Autoincrement.lt_nextId hr

section Append

variable {table : List AuditRow} {row : AuditRow}

/-- A row with a new id comes last among its tenant's rows. -/
theorem tenantRows_concat (h : table.Pairwise fun r s => r.id < s.id) (hid : ∀ r ∈ table, r.id < row.id)
    (t : String) :
    tenantRows (table ++ [row]) t =
      if row.tenantId = t then tenantRows table t ++ [row] else tenantRows table t := by
  have hlast := Autoincrement.selectAsc_concat h hid fun r => decide (r.tenantId = t)
  simp only [decide_eq_true_eq] at hlast
  exact hlast

/-- **A row that is linked to the last one keeps the log.** -/
theorem LogInv.concat (h : LogInv table) (hid : ∀ r ∈ table, r.id < row.id)
    (hhash : row.rowHash = computeRowHash row.toAuditContent)
    (hchain : row.chainHash = toHex (linkDigest
      ((contents (tenantRows table row.tenantId)).foldl linkDigest genesisDigest) row.toAuditContent))
    (hnum : row.sequenceNum = (tenantRows table row.tenantId).length + 1) : LogInv (table ++ [row]) where
  ids := Autoincrement.Ascending.concat h.ids hid
  intact t := by
    rw [tenantRows_concat h.ids hid]
    split_ifs with ht
    · subst ht
      exact intact_append.2 ⟨h.intact _, hhash, hchain, trivial⟩
    · exact h.intact t
  numbered t := by
    rw [tenantRows_concat h.ids hid]
    split_ifs with ht
    · subst ht
      rw [List.map_append, h.numbered, List.length_append, List.length_singleton, List.range_succ,
        List.map_append]
      simp [hnum]
    · exact h.numbered t

end Append

theorem LogInv.nil : LogInv [] where
  ids := .nil
  intact _ := trivial
  numbered _ := rfl

/-- The largest number of a tenant's rows is their count. -/
theorem LogInv.maxSequenceNum {table : List AuditRow} (h : LogInv table) (t : String) :
    maxSequenceNum table t = (tenantRows table t).length := by
  have hnum := h.numbered t
  obtain ⟨rows, hrows⟩ : ∃ rows, rows = tenantRows table t := ⟨_, rfl⟩
  rw [Audit.maxSequenceNum, ← hrows]
  rw [← hrows] at hnum
  clear hrows
  -- the numbers ascend, so the fold ends with the last one
  induction rows using List.reverseRecOn with
  | nil => rfl
  | append_singleton rows r ih =>
    rw [List.map_append, List.length_append, List.length_singleton, List.range_succ, List.map_append] at hnum
    obtain ⟨hrows, hr⟩ := List.append_inj' hnum rfl
    have hr : r.sequenceNum = rows.length + 1 := by simpa using hr
    have ih := ih hrows
    rw [List.foldl_append, List.foldl_cons, List.foldl_nil, List.length_append, List.length_singleton]
    revert ih
    cases rows.foldl (fun m r => match m with
      | none => some r.sequenceNum
      | some k => some (if k < r.sequenceNum then r.sequenceNum else k)) none with
    | none => intro _; simp [hr]
    | some k =>
      intro ih
      have hk : k = rows.length := ih
      simp only [Option.getD_some]
      split_ifs with hlt
      · rw [hr]; push_cast; rfl
      · omega

/-- The event can be written: its texts are Unicode, its number fits its column. -/
structure Event.Recordable (e : Event) : Prop where
  instanceId : ∀ s ∈ e.instanceId, s.toString?.isSome = true
  proofId : ∀ s ∈ e.proofId, s.toString?.isSome = true
  sequenceId : ∀ n ∈ e.sequenceId, fitsInteger n = true

theorem encodable_returns_iff {o : Option PyStr} :
    (∃ t, encodable o = .ok t) ↔ ∀ s ∈ o, s.toString?.isSome = true := by
  cases o with
  | none => simp [encodable]
  | some s => cases hs : s.toString? <;> simp [encodable, hs]

/-- What the columns of an event are. -/
theorem Event.content_ok {e : Event} {n : ℤ} {c : AuditContent} (h : e.content n = .ok c) :
    c.tenantId = e.tenantId ∧ c.traceId = e.traceId ∧ c.sequenceNum = n ∧ c.sequenceId = e.sequenceId ∧
      c.result = if e.valid then "valid" else "invalid" := by
  simp only [Event.content, bind_eq_ok_iff] at h
  obtain ⟨i, -, p, -, h⟩ := h
  obtain rfl := Except.ok.inj h
  exact ⟨rfl, rfl, rfl, rfl, rfl⟩

theorem Event.content_returns_iff {e : Event} {n : ℤ} :
    (∃ c, e.content n = .ok c) ↔
      (∀ s ∈ e.instanceId, s.toString?.isSome = true) ∧ ∀ s ∈ e.proofId, s.toString?.isSome = true := by
  rw [← encodable_returns_iff, ← encodable_returns_iff]
  constructor
  · rintro ⟨c, h⟩
    simp only [Event.content, bind_eq_ok_iff] at h
    obtain ⟨i, hi, p, hp, -⟩ := h
    exact ⟨⟨i, hi⟩, p, hp⟩
  · rintro ⟨⟨i, hi⟩, p, hp⟩
    exact ⟨_, by rw [Event.content, hi, ok_bind, hp, ok_bind]⟩

theorem Event.entry_ok_iff {e : Event} {prev : Bytes} {n : ℤ} {entry : VerificationAuditEntry} :
    e.entry (toHex prev) n = .ok entry ↔ ∃ c, e.content n = .ok c ∧
      entry = ⟨c, computeRowHash c, toHex prev, toHex (linkDigest prev c)⟩ := by
  simp only [Event.entry, bind_eq_ok_iff, computeChainHash_hex, Except.ok.injEq]
  constructor
  · rintro ⟨c, hc, _, rfl, rfl⟩
    exact ⟨c, hc, rfl⟩
  · rintro ⟨c, hc, rfl⟩
    exact ⟨c, hc, _, rfl, rfl⟩

theorem insertEntry_ok_iff {table table' : List AuditRow} {entry : VerificationAuditEntry} :
    insertEntry table entry = .ok table' ↔
      (∀ n ∈ entry.sequenceId, fitsInteger n = true) ∧
      (∀ r ∈ table, r.tenantId = entry.tenantId → r.sequenceNum ≠ entry.sequenceNum) ∧
      table' = table ++ [{ entry with id := nextId table }] := by
  have hfit : (entry.sequenceId.any fun n => !fitsInteger n) = true ↔
      ¬ ∀ n ∈ entry.sequenceId, fitsInteger n = true := by
    cases entry.sequenceId <;> simp
  have huniq : (table.any fun r => r.tenantId = entry.tenantId ∧ r.sequenceNum = entry.sequenceNum) = true ↔
      ¬ ∀ r ∈ table, r.tenantId = entry.tenantId → r.sequenceNum ≠ entry.sequenceNum := by
    simp
  rw [insertEntry]
  by_cases h₁ : ∀ n ∈ entry.sequenceId, fitsInteger n = true
  · rw [if_neg (by rw [hfit]; exact not_not.2 h₁)]
    by_cases h₂ : ∀ r ∈ table, r.tenantId = entry.tenantId → r.sequenceNum ≠ entry.sequenceNum
    · rw [if_neg (by rw [huniq]; exact not_not.2 h₂), Except.ok.injEq]
      exact ⟨fun h => ⟨h₁, h₂, h.symm⟩, fun h => h.2.2.symm⟩
    · rw [if_pos (huniq.2 h₂)]
      exact ⟨nofun, fun h => absurd h.2.1 h₂⟩
  · rw [if_pos (hfit.2 h₁)]
    exact ⟨nofun, fun h => absurd h.1 h₁⟩

/-- Among a tenant's rows no number is beyond their count. -/
theorem LogInv.sequenceNum_le {table : List AuditRow} (h : LogInv table) {r : AuditRow} (hr : r ∈ table) :
    r.sequenceNum ≤ (tenantRows table r.tenantId).length := by
  have hmem : r ∈ tenantRows table r.tenantId := by
    rw [tenantRows_eq_filter h.ids]
    simp [hr]
  have hnum : r.sequenceNum ∈ (tenantRows table r.tenantId).map fun r => r.sequenceNum :=
    List.mem_map_of_mem hmem
  rw [h.numbered] at hnum
  obtain ⟨k, hk, hkr⟩ := List.mem_map.1 hnum
  have := List.mem_range.1 hk
  omega

/-- **What a call of `record` does.**  On a log that `record` has written it
appends one row, for the event's tenant and with its result, exactly if the event
can be written; otherwise it raises. -/
theorem recordEvent_ok_iff {table : List AuditRow} (h : LogInv table) {e : Event} :
    (∃ r, recordEvent table e = .ok r) ↔ e.Recordable := by
  constructor
  · rintro ⟨r, hr⟩
    rw [recordEvent, getLatestChainHash_eq (h.intact _)] at hr
    simp only [bind_eq_ok_iff, Event.entry_ok_iff, insertEntry_ok_iff] at hr
    obtain ⟨entry, ⟨c, hc, rfl⟩, table', ⟨hfit, -, -⟩, -⟩ := hr
    obtain ⟨hi, hp⟩ := Event.content_returns_iff.1 ⟨c, hc⟩
    refine ⟨hi, hp, ?_⟩
    rw [← (Event.content_ok hc).2.2.2.1]
    exact hfit
  · intro he
    obtain ⟨c, hc⟩ := (Event.content_returns_iff (n := maxSequenceNum table e.tenantId + 1)).2
      ⟨he.instanceId, he.proofId⟩
    obtain ⟨ht, -, hn, hs, -⟩ := Event.content_ok hc
    rw [recordEvent, getLatestChainHash_eq (h.intact _)]
    simp only [bind_eq_ok_iff, Event.entry_ok_iff, insertEntry_ok_iff]
    refine ⟨_, _, ⟨c, hc, rfl⟩, _, ⟨?_, ?_, rfl⟩, rfl⟩
    · simp only [hs]
      exact he.sequenceId
    · intro r hr htr hnr
      simp only [ht] at htr
      simp only [hn, h.maxSequenceNum] at hnr
      have := h.sequenceNum_le hr
      rw [htr] at this
      omega

theorem recordEvent_ok {table table' : List AuditRow} (h : LogInv table) {e : Event}
    {entry : VerificationAuditEntry} (hr : recordEvent table e = .ok (entry, table')) :
    LogInv table' ∧ ∃ row : AuditRow, table' = table ++ [row] ∧ row.toVerificationAuditEntry = entry ∧
      row.tenantId = e.tenantId ∧ row.result = if e.valid then "valid" else "invalid" := by
  rw [recordEvent, getLatestChainHash_eq (h.intact _)] at hr
  simp only [bind_eq_ok_iff, Event.entry_ok_iff, insertEntry_ok_iff] at hr
  obtain ⟨_, ⟨c, hc, rfl⟩, _, ⟨-, -, rfl⟩, hr⟩ := hr
  obtain ⟨rfl, rfl⟩ := Prod.mk.inj (Except.ok.inj hr)
  obtain ⟨ht, -, hn, -, hres⟩ := Event.content_ok hc
  refine ⟨h.concat (fun r hr => lt_nextId hr) rfl ?_ ?_, _, rfl, rfl, ht, hres⟩
  · simp only [ht]
  · simp only [ht, hn, h.maxSequenceNum]

/-- The log after a sequence of calls; one that raises leaves it. -/
def recordAll (table : List AuditRow) (es : List Event) : List AuditRow :=
  es.foldl (fun table e => match recordEvent table e with
    | .ok (_, table') => table'
    | .error _ => table) table

/-- **Every log that `record` has written** satisfies the invariant. -/
theorem LogInv.recordAll {es : List Event} : ∀ {table : List AuditRow}, LogInv table →
    LogInv (recordAll table es) := by
  induction es with
  | nil => exact id
  | cons e es ih =>
    intro table h
    rw [Audit.recordAll, List.foldl_cons]
    cases hr : recordEvent table e with
    | ok r => exact ih (recordEvent_ok h hr).1
    | error err => exact ih h

theorem getLatestChainHash_nil (t : String) : getLatestChainHash [] t = toHex genesisDigest := genesisHash_eq

theorem maxSequenceNum_nil (t : String) : maxSequenceNum [] t = 0 := rfl

/-- The verification of the sample. -/
def sampleEvent : Event where
  tenantId := "acme"
  traceId := "t-1"
  instanceId := none
  sequenceId := none
  proofId := none
  verifiedAt := "2026-01-01T00:00:00Z"
  valid := false
  failureCode := some "SchemaValidationError"
  failureMsg := some "Proof schema invalid: 1 validation error for ProofV1"
  keyId := some "unknown"
  governanceJson := none
  recordedAt := "2026-01-01T00:00:00Z"

/-- The first row of a log, of an event without a sequence number. -/
theorem recordEvent_first {e : Event} {c : AuditContent} (h : e.content 1 = .ok c) (hs : e.sequenceId = none) :
    recordEvent [] e = .ok (⟨c, computeRowHash c, genesisHash, toHex (linkDigest genesisDigest c)⟩,
      [⟨⟨c, computeRowHash c, genesisHash, toHex (linkDigest genesisDigest c)⟩, 1⟩]) := by
  obtain ⟨-, -, -, hseq, -⟩ := Event.content_ok h
  have he : e.entry (toHex genesisDigest) 1 =
      .ok ⟨c, computeRowHash c, toHex genesisDigest, toHex (linkDigest genesisDigest c)⟩ :=
    Event.entry_ok_iff.2 ⟨c, h, rfl⟩
  simp [recordEvent, getLatestChainHash_nil, maxSequenceNum_nil, he, ok_bind, insertEntry, hseq, hs, genesisHash_eq,
    nextId]

/-- The log of one call. -/
theorem recordAll_sampleEvent : recordAll [] [sampleEvent] = [sampleRow 1 genesisHash] := by
  have hcontent : sampleEvent.content 1 = .ok sampleContent := rfl
  rw [recordAll, List.foldl_cons, recordEvent_first hcontent rfl]
  rfl

end Audit
end ProvableAi
