/-
# The anchor store

`AuditAnchorStore` in `audit_anchor.py`: the table `chain_anchors`, one row for
each chain hash that was anchored.  A row holds the hash of six of its columns
(`row_hash`), the chain hash of the tenant's row before it and its own chain hash.
`verify_anchor_chain` walks a tenant's rows in the order of their ids.

`chainValid_iff` says what the walk checks, which is less than the table holds:
`anchor_backends` and `prev_anchor_hash` are neither hashed nor compared, and the
numbers are never looked at.  `AnchorInv` is what calls of `anchor` one after the
other keep: ids ascend, and each tenant's rows are intact and numbered `1, 2, …`.

The answer of the timestamp authority and the success of the upload belong to a
call, as its id and its time do.
-/

import ProvableAi.Audit.KeyRegistry

namespace ProvableAi
namespace Anchor

open HashChain

/-! ### Rows and their hashes -/

/-- The columns that `_compute_anchor_row_hash` covers. -/
structure AnchorContent where
  anchorId : String
  tenantId : String
  chainHash : String
  anchoredAt : String
  anchorSeq : ℤ
  rfc3161Json : Option String
  deriving DecidableEq

/-- The columns that `anchor` writes. -/
structure AnchorEntry extends AnchorContent where
  anchorBackends : String
  rowHash : String
  prevAnchorHash : String
  anchorChainHash : String
  deriving DecidableEq

/-- A row of `chain_anchors`. -/
structure AnchorRow extends AnchorEntry where
  id : ℤ
  deriving DecidableEq

/-- `ANCHOR_GENESIS`. -/
def anchorGenesis : String := genesisHash

/-- The dict that `_compute_anchor_row_hash` writes. -/
def AnchorContent.toJson (c : AnchorContent) : Json :=
  .obj [("anchor_id", .str c.anchorId), ("tenant_id", .str c.tenantId), ("chain_hash", .str c.chainHash),
    ("anchored_at", .str c.anchoredAt), ("anchor_seq", .int c.anchorSeq), ("rfc3161", .ofOptStr c.rfc3161Json)]

/-- `_compute_anchor_row_hash`, as bytes. -/
def AnchorContent.digest (c : AnchorContent) : Bytes := sha256 (utf8 (KeyRegistry.dumpsAscii c.toJson))

/-- `_compute_anchor_row_hash`. -/
def computeAnchorRowHash (c : AnchorContent) : String := toHex c.digest

/-- `SELECT * … WHERE tenant_id=? ORDER BY id ASC`. -/
def tenantRows (table : List AnchorRow) (tenantId : String) : List AnchorRow :=
  Autoincrement.selectAsc AnchorRow.id (fun r => r.tenantId = tenantId) table

/-! ### `anchor` -/

/-- What `request_rfc3161_timestamp` returns. -/
structure Rfc3161 where
  status : String
  tsaUrl : String
  tokenHex : Option String
  error : Option String

def Rfc3161.toJson (r : Rfc3161) : Json :=
  .obj [("status", .str r.status), ("tsa_url", .str r.tsaUrl), ("hash_algo", .str "sha256"),
    ("token_hex", .ofOptStr r.tokenHex), ("error", .ofOptStr r.error)]

/-- `json.dumps(v, sort_keys=True)`. -/
def dumpsSorted (v : Json) : String := String.ofList (Postgres.spaced v.canon)

/-- A call of `anchor`, with the id and the time it draws and what it is answered from outside. -/
structure AnchorCall where
  anchorId : String
  now : String
  tenantId : String
  chainHash : String
  /-- What the timestamp authority answered; nothing where `request_rfc3161` is not set. -/
  rfc3161 : Option Rfc3161
  /-- A bucket is configured, and the upload succeeded. -/
  s3Written : Bool

/-- `backends`, in the order in which the names are appended. -/
def AnchorCall.backends (a : AnchorCall) : List String :=
  (if a.rfc3161.any fun r => r.status = "granted" then ["rfc3161"] else []) ++ ["stdout"] ++
    (if a.s3Written then ["s3"] else []) ++ ["local"]

/-- `json.dumps(sorted(set(backends)))`. -/
def AnchorCall.backendsJson (a : AnchorCall) : String :=
  dumpsSorted (.arr ((a.backends.dedup.insertionSort fun s t => s ≤ t).map Json.str))

/-- The columns that are hashed, under the number that was read. -/
def AnchorCall.content (a : AnchorCall) (anchorSeq : ℤ) : AnchorContent where
  anchorId := a.anchorId
  tenantId := a.tenantId
  chainHash := a.chainHash
  anchoredAt := a.now
  anchorSeq := anchorSeq
  rfc3161Json := a.rfc3161.map fun r => dumpsSorted r.toJson

/-- The columns of the row, from the number and the hash that were read. -/
def AnchorCall.entry (a : AnchorCall) (anchorSeq : ℤ) (prevAnchorHash : String) : Except PyErr AnchorEntry := do
  let content := a.content anchorSeq
  let anchorChainHash ← Audit.computeChainHash prevAnchorHash (computeAnchorRowHash content)
  .ok
    { content with
      anchorBackends := a.backendsJson, rowHash := computeAnchorRowHash content, prevAnchorHash := prevAnchorHash
      anchorChainHash := anchorChainHash }

/-- `(row[0] or 0) + 1` for `SELECT MAX(anchor_seq) … WHERE tenant_id=?`. -/
def nextAnchorSeq (table : List AnchorRow) (tenantId : String) : ℤ :=
  (((table.filter fun r => r.tenantId = tenantId).map fun r => r.anchorSeq).max?).getD 0 + 1

/-- `SELECT anchor_chain_hash … WHERE tenant_id=? ORDER BY id DESC LIMIT 1`. -/
def prevAnchorHash (table : List AnchorRow) (tenantId : String) : String :=
  ((tenantRows table tenantId).getLast?.map fun r => r.anchorChainHash).getD anchorGenesis

/-- `INSERT INTO chain_anchors`, where `anchor_id` is `UNIQUE`. -/
def insertEntry (table : List AnchorRow) (entry : AnchorEntry) : Except PyErr (List AnchorRow) :=
  if table.any fun r => r.anchorId = entry.anchorId then .error .integrityError
  else .ok (table ++ [{ entry with id := Autoincrement.nextId AnchorRow.id table }])

/-- `anchor`, with nothing between its statements. -/
def anchor (table : List AnchorRow) (a : AnchorCall) : Except PyErr (AnchorEntry × List AnchorRow) := do
  let anchorSeq := nextAnchorSeq table a.tenantId
  let entry ← a.entry anchorSeq (prevAnchorHash table a.tenantId)
  let table ← insertEntry table entry
  .ok (entry, table)

/-- The table after a call, whether it returns or raises. -/
def anchorNext (table : List AnchorRow) (a : AnchorCall) : List AnchorRow :=
  match anchor table a with
  | .ok (_, table') => table'
  | .error _ => table

/-- Calls one after the other. -/
def anchorAll (table : List AnchorRow) (calls : List AnchorCall) : List AnchorRow := calls.foldl anchorNext table

/-! ### `verify_anchor_chain` -/

/-- What `verify_anchor_chain` returns. -/
structure AnchorChainResult where
  valid : Bool
  total : ℕ
  brokenAt : Option ℤ
  message : Option String

/-- The loop of `verify_anchor_chain`; `total` is the number of rows. -/
def verifyRows (total : ℕ) : String → List AnchorRow → Except PyErr AnchorChainResult
  | _, [] => .ok ⟨true, total, none, none⟩
  | prevHash, row :: rest => do
    let expectedRowHash := computeAnchorRowHash row.toAnchorContent
    let expectedChain ← Audit.computeChainHash prevHash expectedRowHash
    if row.rowHash ≠ expectedRowHash ∨ row.anchorChainHash ≠ expectedChain then
      .ok ⟨false, total, some row.id, some ("Anchor chain broken at id=" ++ toString row.id)⟩
    else verifyRows total row.anchorChainHash rest

/-- `verify_anchor_chain`. -/
def verifyAnchorChain (table : List AnchorRow) (tenantId : String) : Except PyErr AnchorChainResult :=
  let rows := tenantRows table tenantId
  if rows = [] then .ok ⟨true, 0, none, none⟩ else verifyRows rows.length anchorGenesis rows

/-- `verify_anchor_chain(tenant_id)["valid"]`. -/
def ChainValid (table : List AnchorRow) (t : String) : Prop :=
  ∃ res, verifyAnchorChain table t = .ok res ∧ res.valid = true

/-! ### Looking an anchor up -/

/-- `find`: the first of the tenant's anchors of a chain hash.  The two columns that `json.dumps` has written stay as
they are. -/
def find (table : List AnchorRow) (tenantId chainHash : String) : Option AnchorRow :=
  ((table.filter fun r => r.tenantId = tenantId ∧ r.chainHash = chainHash).insertionSort
    fun r s => r.anchorSeq ≤ s.anchorSeq).head?

/-- What `verify_against_anchor` returns, as far as its caller reads it. -/
structure AnchorCheck where
  anchored : Bool
  anchoredAt : Option String
  anchorSeq : Option ℤ
  /-- As the column has it. -/
  backends : String

/-- `verify_against_anchor`. -/
def verifyAgainstAnchor (table : List AnchorRow) (tenantId chainHash : String) : AnchorCheck :=
  match find table tenantId chainHash with
  | none => ⟨false, none, none, "[]"⟩
  | some record => ⟨true, some record.anchoredAt, some record.anchorSeq, record.anchorBackends⟩

/-! ### What the walk checks -/

/-- The chain hash after a row, as bytes. -/
def linkDigest (prev : Bytes) (c : AnchorContent) : Bytes := sha256 (prev ++ c.digest)

/-- The row carries its own hash and the chain hash `d`. -/
def Agrees (r : AnchorRow) (d : Bytes) : Prop :=
  r.rowHash = computeAnchorRowHash r.toAnchorContent ∧ r.anchorChainHash = toHex d

/-- Every row carries its recomputed hashes, from the chain hash `prev` on. -/
def Intact (prev : Bytes) (rows : List AnchorRow) : Prop :=
  Sealed linkDigest (fun r => r.toAnchorContent) Agrees prev rows

/-- The hashed columns of rows. -/
def contents (rows : List AnchorRow) : List AnchorContent := rows.map fun r => r.toAnchorContent

theorem computeChainHash_hex (prev : Bytes) (c : AnchorContent) :
    Audit.computeChainHash (toHex prev) (computeAnchorRowHash c) = .ok (toHex (linkDigest prev c)) := by
  rw [Audit.computeChainHash, computeAnchorRowHash, fromHex_toHex, fromHex_toHex]
  rfl

theorem verifyRows_valid_iff {total : ℕ} {rows : List AnchorRow} : ∀ {prev : Bytes},
    ∃ res, verifyRows total (toHex prev) rows = .ok res ∧ (res.valid = true ↔ Intact prev rows) := by
  induction rows with
  | nil => exact ⟨_, rfl, iff_of_true rfl trivial⟩
  | cons r rows ih =>
    intro prev
    rw [verifyRows, computeChainHash_hex, ok_bind]
    by_cases hr : Agrees r (linkDigest prev r.toAnchorContent)
    · rw [if_neg (by simp [hr.1, hr.2]), hr.2]
      obtain ⟨res, hres, hval⟩ := ih
      exact ⟨res, hres, hval.trans ⟨fun h => ⟨hr, h⟩, fun h => h.2⟩⟩
    · have hbad : r.rowHash ≠ computeAnchorRowHash r.toAnchorContent ∨
          r.anchorChainHash ≠ toHex (linkDigest prev r.toAnchorContent) := not_and_or.1 hr
      rw [if_pos hbad]
      exact ⟨_, rfl, iff_of_false Bool.false_ne_true fun h => hr h.1⟩

/-- **What `verify_anchor_chain` checks**, and it never raises. -/
theorem chainValid_iff {table : List AnchorRow} {t : String} :
    ChainValid table t ↔ Intact Audit.genesisDigest (tenantRows table t) := by
  rw [ChainValid, verifyAnchorChain]
  by_cases h : tenantRows table t = []
  · rw [h]
    exact iff_of_true ⟨_, rfl, rfl⟩ trivial
  · obtain ⟨res, hres, hval⟩ := @verifyRows_valid_iff (tenantRows table t).length (tenantRows table t) Audit.genesisDigest
    simp only [if_neg h, anchorGenesis, Audit.genesisHash_eq, hres, Except.ok.injEq, exists_eq_left', hval]

/-- The chain hash of a tenant, as bytes. -/
def chainDigest (table : List AnchorRow) (t : String) : Bytes :=
  (contents (tenantRows table t)).foldl linkDigest Audit.genesisDigest

/-! ### Calls one after the other -/

/-- Ids ascend; every tenant's rows are intact, and numbered from one on. -/
structure AnchorInv (table : List AnchorRow) : Prop where
  ids : Autoincrement.Ascending AnchorRow.id table
  intact : ∀ t, Intact Audit.genesisDigest (tenantRows table t)
  numbered : ∀ t, (tenantRows table t).map (fun r => r.anchorSeq) =
    (List.range (tenantRows table t).length).map fun k : ℕ => (k : ℤ) + 1

theorem AnchorInv.nil : AnchorInv [] := ⟨List.Pairwise.nil, fun _ => trivial, fun _ => rfl⟩

section Inv

variable {table : List AnchorRow} {t : String}

theorem AnchorInv.prevAnchorHash_eq (h : AnchorInv table) (t : String) :
    prevAnchorHash table t = toHex (chainDigest table t) := by
  rw [prevAnchorHash, anchorGenesis, Audit.genesisHash_eq]
  exact Sealed.last (fun r d hr => hr.2) (h.intact t)

/-- The largest of `1, …, n`. -/
theorem max?_counting (n : ℕ) : ((List.range n).map fun k : ℕ => (k : ℤ) + 1).max?.getD 0 = n := by
  cases n with
  | zero => rfl
  | succ n =>
    have hmax : ((List.range (n + 1)).map fun k : ℕ => (k : ℤ) + 1).max? = some ((n : ℤ) + 1) := by
      rw [List.max?_eq_some_iff]
      refine ⟨List.mem_map.2 ⟨n, List.self_mem_range_succ, rfl⟩, fun b hb => ?_⟩
      obtain ⟨k, hk, rfl⟩ := List.mem_map.1 hb
      have := List.mem_range.1 hk
      omega
    rw [hmax]
    push_cast
    rfl

/-- The next number is one more than there are rows. -/
theorem AnchorInv.nextAnchorSeq_eq (h : AnchorInv table) (t : String) :
    nextAnchorSeq table t = (tenantRows table t).length + 1 := by
  have hnum := h.numbered t
  rw [tenantRows, Autoincrement.selectAsc_eq h.ids] at hnum ⊢
  rw [nextAnchorSeq, hnum, max?_counting]

theorem insertEntry_eq_ok {entry : AnchorEntry} {table' : List AnchorRow} :
    insertEntry table entry = .ok table' ↔ (∀ r ∈ table, r.anchorId ≠ entry.anchorId) ∧
      table' = table ++ [{ entry with id := Autoincrement.nextId AnchorRow.id table }] := by
  rw [insertEntry]
  by_cases hused : (table.any fun r => r.anchorId = entry.anchorId) = true
  · rw [if_pos hused]
    refine iff_of_false (by simp) fun h => ?_
    obtain ⟨r, hr, heq⟩ := List.any_eq_true.1 hused
    exact h.1 r hr (of_decide_eq_true heq)
  · rw [if_neg hused, Except.ok.injEq]
    have hfree : ∀ r ∈ table, r.anchorId ≠ entry.anchorId := fun r hr heq =>
      hused (List.any_eq_true.2 ⟨r, hr, decide_eq_true heq⟩)
    exact ⟨fun h => ⟨hfree, h.symm⟩, fun h => h.2.symm⟩

theorem entry_hex (a : AnchorCall) (n : ℤ) (prev : Bytes) : a.entry n (toHex prev) = .ok
    { a.content n with
      anchorBackends := a.backendsJson, rowHash := computeAnchorRowHash (a.content n), prevAnchorHash := toHex prev
      anchorChainHash := toHex (linkDigest prev (a.content n)) } := by
  rw [AnchorCall.entry, computeChainHash_hex, ok_bind]

theorem entry_content {a : AnchorCall} {n : ℤ} {prev : String} {entry : AnchorEntry} (h : a.entry n prev = .ok entry) :
    entry.toAnchorContent = a.content n := by
  obtain ⟨chain, -, hentry⟩ := bind_eq_ok_iff.1 h
  obtain rfl := Except.ok.inj hentry
  rfl

/-- The tenant's rows after an insert. -/
theorem tenantRows_concat (h : Autoincrement.Ascending AnchorRow.id table) (entry : AnchorEntry) (t : String) :
    tenantRows (table ++ [{ entry with id := Autoincrement.nextId AnchorRow.id table }]) t =
      if entry.tenantId = t then tenantRows table t ++ [{ entry with id := Autoincrement.nextId AnchorRow.id table }]
      else tenantRows table t := by
  rw [tenantRows, Autoincrement.selectAsc_concat h fun r hr => Autoincrement.lt_nextId hr]
  simp only [decide_eq_true_eq]
  rfl

/-- **A row with the next number and the next chain hash** keeps the table in order. -/
theorem AnchorInv.concat (h : AnchorInv table) {a : AnchorCall} {n : ℤ} {prev : Bytes} {entry : AnchorEntry}
    (hentry : a.entry n (toHex prev) = .ok entry) (hn : n = (tenantRows table a.tenantId).length + 1)
    (hprev : prev = chainDigest table a.tenantId) :
    AnchorInv (table ++ [{ entry with id := Autoincrement.nextId AnchorRow.id table }]) := by
  rw [entry_hex] at hentry
  obtain rfl := Except.ok.inj hentry
  refine ⟨h.ids.concat fun r hr => Autoincrement.lt_nextId hr, fun t => ?_, fun t => ?_⟩
  · rw [tenantRows_concat h.ids]
    split_ifs with ht
    · subst ht hprev
      exact sealed_append.2 ⟨h.intact _, ⟨rfl, rfl⟩, trivial⟩
    · exact h.intact t
  · rw [tenantRows_concat h.ids]
    split_ifs with ht
    · subst ht hn
      rw [List.map_append, List.length_append, h.numbered, List.length_singleton, List.range_succ, List.map_append]
      rfl
    · exact h.numbered t

theorem AnchorInv.anchorNext (h : AnchorInv table) (a : AnchorCall) : AnchorInv (anchorNext table a) := by
  rw [Anchor.anchorNext]
  cases hanchor : anchor table a with
  | error e => exact h
  | ok result =>
    obtain ⟨entry, table'⟩ := result
    obtain ⟨entry', hentry, hrest⟩ := bind_eq_ok_iff.1 hanchor
    obtain ⟨table'', hinsert, hresult⟩ := bind_eq_ok_iff.1 hrest
    obtain ⟨rfl, rfl⟩ := Prod.mk.inj (Except.ok.inj hresult)
    rw [h.prevAnchorHash_eq] at hentry
    obtain ⟨-, rfl⟩ := insertEntry_eq_ok.1 hinsert
    exact h.concat hentry (h.nextAnchorSeq_eq _) rfl

/-- **Calls of `anchor` one after the other**, some of which may raise. -/
theorem anchorAll_inv (calls : List AnchorCall) : ∀ {table : List AnchorRow}, AnchorInv table →
    AnchorInv (anchorAll table calls) := by
  induction calls with
  | nil => exact fun h => h
  | cons a calls ih => exact fun h => ih (h.anchorNext a)

end Inv

end Anchor
end ProvableAi
