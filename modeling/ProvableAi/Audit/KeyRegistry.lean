/-
# The key registry

`audit_keyregistry.py`: which key a tenant signs with, and since when.  Rows are
never changed.  A rotation adds two: one that retires the active key, and one
for its successor; the active row of the old key stays as it is.

A row is hashed, and chained to the tenant's row before it, the way the audit
log does it.  The texts that the methods take are Python texts.  SQLite stores
them in UTF-8, so a lone surrogate makes the statement that binds it raise
`UnicodeEncodeError`.  The two inserts of a rotation are two transactions, and
the second one binds texts that the first one does not: the public key, the
algorithm and the source.

`registry_sound_iff` is the result: the chain of every tenant stays valid, rows
stay as they are, and the rows of every tenant are an active one followed by
rotations, after every call of a run, exactly if no rotation of the run fails
between its two inserts.
-/

import ProvableAi.Audit.Log
import ProvableAi.Lib.Lockstep
import ProvableAi.Storage.Postgres

namespace ProvableAi
namespace KeyRegistry

open HashChain Lockstep

/-! ### Rows -/

/-- `status`. -/
inductive Status where
  | active
  | retired
  deriving DecidableEq

def Status.text : Status → String
  | active => "active"
  | retired => "retired"

/-- The columns that `_row_hash` covers. -/
structure KeyContent where
  keyId : String
  tenantId : String
  publicKey : String
  algorithm : String
  source : String
  status : Status
  registeredAt : String
  retiredAt : Option String
  supersededBy : Option String
  notes : Option String
  deriving DecidableEq

/-- `KeyRecord`. -/
structure KeyRecord extends KeyContent where
  rowHash : String
  chainHash : String
  deriving DecidableEq

/-- A row of `key_registry`. -/
structure KeyRow extends KeyRecord where
  id : ℤ
  deriving DecidableEq

/-- `KEY_REGISTRY_GENESIS`. -/
def keyRegistryGenesis : String := genesisHash

/-- A character of a JSON text as `ensure_ascii=True` leaves it. -/
def toAscii (c : Char) : List Char := if c.toNat < 127 then [c] else Postgres.asciiChar c

/-- `json.dumps(v, sort_keys=True, separators=(",", ":"))`: outside of strings all is
ASCII anyway. -/
def dumpsAscii (v : Json) : String := String.ofList ((render v.canon).flatMap toAscii)

/-- The dict that `_row_hash` writes. -/
def KeyContent.toJson (c : KeyContent) : Json :=
  .obj [("key_id", .str c.keyId), ("tenant_id", .str c.tenantId), ("public_key", .str c.publicKey),
    ("algorithm", .str c.algorithm), ("source", .str c.source), ("status", .str c.status.text),
    ("registered_at", .str c.registeredAt), ("retired_at", .ofOptStr c.retiredAt),
    ("superseded_by", .ofOptStr c.supersededBy), ("notes", .ofOptStr c.notes)]

/-- `_row_hash`, as bytes. -/
def KeyContent.digest (c : KeyContent) : Bytes := sha256 (utf8 (dumpsAscii c.toJson))

/-- `_row_hash`. -/
def rowHash (c : KeyContent) : String := toHex c.digest

/-- `SELECT * … WHERE tenant_id=? ORDER BY id ASC`. -/
def tenantRows (table : List KeyRow) (tenantId : String) : List KeyRow :=
  Autoincrement.selectAsc KeyRow.id (fun r => r.tenantId = tenantId) table

/-- `_prev_chain_hash`. -/
def prevChainHash (table : List KeyRow) (tenantId : String) : String :=
  ((tenantRows table tenantId).getLast?.map fun r => r.chainHash).getD keyRegistryGenesis

/-! ### Inserting -/

/-- A text as SQLite binds it. -/
def encode (s : PyStr) : Except PyErr String :=
  match s.toString? with
  | some t => .ok t
  | none => .error .unicodeEncodeError

/-- The arguments of `_insert_row`. -/
structure RowArgs where
  keyId : PyStr
  tenantId : PyStr
  publicKey : PyStr
  algorithm : PyStr
  source : PyStr
  status : Status
  registeredAt : String
  retiredAt : Option String
  supersededBy : Option PyStr
  notes : Option PyStr

/-- The arguments as they are stored. -/
def RowArgs.content (a : RowArgs) : Except PyErr KeyContent := do
  let keyId ← encode a.keyId
  let tenantId ← encode a.tenantId
  let publicKey ← encode a.publicKey
  let algorithm ← encode a.algorithm
  let source ← encode a.source
  let supersededBy ← Audit.encodable a.supersededBy
  let notes ← Audit.encodable a.notes
  .ok
    { keyId := keyId, tenantId := tenantId, publicKey := publicKey, algorithm := algorithm, source := source
      status := a.status, registeredAt := a.registeredAt, retiredAt := a.retiredAt
      supersededBy := supersededBy, notes := notes }

/-- `_insert_row`, which commits. -/
def insertRow (table : List KeyRow) (a : RowArgs) : Except PyErr KeyRecord × List KeyRow :=
  match a.content with
  | .error e => (.error e, table)
  | .ok content =>
    match Audit.computeChainHash (prevChainHash table content.tenantId) (rowHash content) with
    | .error e => (.error e, table)
    | .ok chainHash =>
      let record : KeyRecord := { content with rowHash := rowHash content, chainHash := chainHash }
      (.ok record, table ++ [{ record with id := Autoincrement.nextId KeyRow.id table }])

/-! ### The three methods -/

/-- What names a key: the arguments that all three methods take. -/
structure KeyArgs where
  keyId : PyStr
  publicKey : PyStr
  tenantId : PyStr
  algorithm : PyStr
  source : PyStr

/-- `SELECT * … WHERE tenant_id=? AND status='active' ORDER BY id DESC LIMIT 1`. -/
def selectActive (table : List KeyRow) (tenantId : String) : Option KeyRow :=
  ((tenantRows table tenantId).filter fun r => r.status = .active).getLast?

/-- The same with `key_id=?`. -/
def selectActiveKey (table : List KeyRow) (keyId tenantId : String) : Option KeyRow :=
  ((tenantRows table tenantId).filter fun r => r.status = .active ∧ r.keyId = keyId).getLast?

/-- The row of a key that becomes active. -/
def KeyArgs.activeRow (a : KeyArgs) (now : String) (notes : Option PyStr) : RowArgs where
  keyId := a.keyId
  tenantId := a.tenantId
  publicKey := a.publicKey
  algorithm := a.algorithm
  source := a.source
  status := .active
  registeredAt := now
  retiredAt := none
  supersededBy := none
  notes := notes

/-- The row that retires a key. -/
def KeyRow.retiredRow (r : KeyRow) (now : String) (tenantId supersededBy : PyStr) (notes : Option PyStr) :
    RowArgs where
  keyId := .ofString r.keyId
  tenantId := tenantId
  publicKey := .ofString r.publicKey
  algorithm := .ofString r.algorithm
  source := .ofString r.source
  status := .retired
  registeredAt := r.registeredAt
  retiredAt := some now
  supersededBy := some supersededBy
  notes := notes

/-- `register_key`. -/
def registerKey (table : List KeyRow) (now : String) (a : KeyArgs) (notes : Option PyStr) :
    Except PyErr KeyRecord × List KeyRow :=
  match encode a.keyId, encode a.tenantId with
  | .ok keyId, .ok tenantId =>
    match selectActiveKey table keyId tenantId with
    | some existing => (.ok existing.toKeyRecord, table)
    | none =>
      match selectActive table tenantId with
      | some active =>
        (.error (.valueError ("Tenant '" ++ tenantId ++ "' already has active key '" ++ active.keyId ++
          "'. Call rotate_key() to switch to a new key.")), table)
      | none => insertRow table (a.activeRow now notes)
  | .error e, _ => (.error e, table)
  | _, .error e => (.error e, table)

/-- The inserts of a rotation: the retirement of `old`, then the new key. -/
def replaceKey (table : List KeyRow) (now : String) (a : KeyArgs) (old : KeyRow) (retireNotes notes : Option PyStr) :
    Except PyErr (KeyRecord × KeyRecord) × List KeyRow :=
  match insertRow table (old.retiredRow now a.tenantId a.keyId retireNotes) with
  | (.error e, table) => (.error e, table)
  | (.ok retired, table) =>
    match insertRow table (a.activeRow now notes) with
    | (.error e, table) => (.error e, table)
    | (.ok record, table) => (.ok (record, retired), table)

/-- The note `register_or_update` leaves in a retirement. -/
def autoRetired : Option PyStr := some (.ofString "Auto-retired during startup key registration")

/-- `register_or_update`. -/
def registerOrUpdate (table : List KeyRow) (now : String) (a : KeyArgs) : Except PyErr KeyRecord × List KeyRow :=
  match encode a.keyId, encode a.tenantId with
  | .ok keyId, .ok tenantId =>
    match selectActiveKey table keyId tenantId with
    | some existing => (.ok existing.toKeyRecord, table)
    | none =>
      match selectActive table tenantId with
      | some active =>
        if active.keyId ≠ keyId then
          let (result, table) := replaceKey table now a active autoRetired none
          (result.map Prod.fst, table)
        else insertRow table (a.activeRow now none)
      | none => insertRow table (a.activeRow now none)
  | .error e, _ => (.error e, table)
  | _, .error e => (.error e, table)

/-- `rotate_key`. -/
def rotateKey (table : List KeyRow) (now : String) (a : KeyArgs) (notes : Option PyStr) :
    Except PyErr (KeyRecord × Option KeyRecord) × List KeyRow :=
  match encode a.tenantId with
  | .error e => (.error e, table)
  | .ok tenantId =>
    match selectActive table tenantId with
    | some old =>
      let (result, table) := replaceKey table now a old notes notes
      (result.map fun r => (r.1, some r.2), table)
    | none =>
      let (result, table) := insertRow table (a.activeRow now notes)
      (result.map fun r => (r, none), table)

/-! ### `verify_chain` -/

/-- What `verify_chain` returns. -/
structure ChainResult where
  valid : Bool
  total : ℕ
  brokenAt : Option ℤ
  message : Option String

/-- The loop of `verify_chain`; `total` is the number of rows. -/
def verifyRows (total : ℕ) : String → List KeyRow → Except PyErr ChainResult
  | _, [] => .ok ⟨true, total, none, none⟩
  | prev, row :: rest => do
    let expectedRh := rowHash row.toKeyContent
    let expectedCh ← Audit.computeChainHash prev expectedRh
    if row.rowHash ≠ expectedRh ∨ row.chainHash ≠ expectedCh then
      .ok ⟨false, total, some row.id, some ("Key registry chain broken at id=" ++ toString row.id)⟩
    else verifyRows total row.chainHash rest

/-- `verify_chain`. -/
def verifyChain (table : List KeyRow) (tenantId : String) : Except PyErr ChainResult :=
  let rows := tenantRows table tenantId
  if rows = [] then .ok ⟨true, 0, none, none⟩ else verifyRows rows.length keyRegistryGenesis rows

/-! ### The chain -/

/-- The chain hash after a row, as bytes. -/
def linkDigest (prev : Bytes) (c : KeyContent) : Bytes := sha256 (prev ++ c.digest)

/-- The row carries its own hash and the chain hash `d`. -/
def Agrees (r : KeyRow) (d : Bytes) : Prop := r.rowHash = rowHash r.toKeyContent ∧ r.chainHash = toHex d

/-- Every row carries its recomputed hashes, from the chain hash `prev` on. -/
def Intact (prev : Bytes) (rows : List KeyRow) : Prop := Sealed linkDigest (fun r => r.toKeyContent) Agrees prev rows

/-- The chain hash of a tenant, as bytes. -/
def chainDigest (table : List KeyRow) (t : String) : Bytes :=
  ((tenantRows table t).map fun r => r.toKeyContent).foldl linkDigest Audit.genesisDigest

theorem computeChainHash_hex (prev : Bytes) (c : KeyContent) :
    Audit.computeChainHash (toHex prev) (rowHash c) = .ok (toHex (linkDigest prev c)) := by
  rw [Audit.computeChainHash, rowHash, fromHex_toHex, fromHex_toHex]
  rfl

theorem verifyRows_of_intact {total : ℕ} {rows : List KeyRow} : ∀ {prev : Bytes}, Intact prev rows →
    verifyRows total (toHex prev) rows = .ok ⟨true, total, none, none⟩ := by
  induction rows with
  | nil => exact fun _ => rfl
  | cons r rows ih =>
    intro prev h
    obtain ⟨⟨hr, hc⟩, hrest⟩ := h
    rw [verifyRows, computeChainHash_hex, ok_bind, if_neg (by simp [hr, hc]), hc]
    exact ih hrest

/-- `verify_chain(tenant_id)["valid"]`. -/
def ChainValid (table : List KeyRow) (t : String) : Prop :=
  ∃ res, verifyChain table t = .ok res ∧ res.valid = true

/-- Ids ascend, and every tenant's rows are intact. -/
structure Chained (table : List KeyRow) : Prop where
  ids : Autoincrement.Ascending KeyRow.id table
  intact : ∀ t, Intact Audit.genesisDigest (tenantRows table t)

theorem Chained.valid {table : List KeyRow} (h : Chained table) (t : String) : ChainValid table t := by
  rw [ChainValid, verifyChain]
  by_cases hrows : tenantRows table t = []
  · exact ⟨_, if_pos hrows, rfl⟩
  · refine ⟨⟨true, (tenantRows table t).length, none, none⟩, (if_neg hrows).trans ?_, rfl⟩
    rw [keyRegistryGenesis, Audit.genesisHash_eq]
    exact verifyRows_of_intact (h.intact t)

theorem Chained.prevChainHash_eq {table : List KeyRow} (h : Chained table) (t : String) :
    prevChainHash table t = toHex (chainDigest table t) := by
  rw [prevChainHash, keyRegistryGenesis, Audit.genesisHash_eq]
  exact Sealed.last (fun r d hr => hr.2) (h.intact t)

/-- The row that `_insert_row` adds. -/
def nextRow (table : List KeyRow) (c : KeyContent) : KeyRow where
  toKeyContent := c
  rowHash := rowHash c
  chainHash := toHex (linkDigest (chainDigest table c.tenantId) c)
  id := Autoincrement.nextId KeyRow.id table

section Insert

variable {table : List KeyRow} {c : KeyContent}

theorem insertRow_ok (h : Chained table) {a : RowArgs} (ha : a.content = .ok c) :
    insertRow table a = (.ok (nextRow table c).toKeyRecord, table ++ [nextRow table c]) := by
  rw [insertRow, ha]
  simp only
  rw [h.prevChainHash_eq, computeChainHash_hex]
  rfl

theorem insertRow_error {a : RowArgs} {e : PyErr} (ha : a.content = .error e) :
    insertRow table a = (.error e, table) := by
  rw [insertRow, ha]

theorem tenantRows_insert (h : Chained table) (t : String) :
    tenantRows (table ++ [nextRow table c]) t =
      if c.tenantId = t then tenantRows table t ++ [nextRow table c] else tenantRows table t := by
  have hid : ∀ r ∈ table, r.id < (nextRow table c).id := fun r hr => Autoincrement.lt_nextId hr
  have hlast := Autoincrement.selectAsc_concat h.ids hid fun r => decide (r.tenantId = t)
  simp only [decide_eq_true_eq] at hlast
  exact hlast

theorem Chained.insert (h : Chained table) (c : KeyContent) : Chained (table ++ [nextRow table c]) where
  ids := h.ids.concat fun r hr => Autoincrement.lt_nextId hr
  intact t := by
    rw [tenantRows_insert h]
    split_ifs with ht
    · subst ht
      exact sealed_append.2 ⟨h.intact _, ⟨rfl, rfl⟩, trivial⟩
    · exact h.intact t

end Insert

theorem Chained.nil : Chained [] := ⟨.nil, fun _ => trivial⟩

/-! ### The life of the keys -/

/-- The rows after the active row `a`: each rotation retires the key that is active
and makes another one active. -/
def Rotations : KeyRow → List KeyRow → Prop
  | _, [] => True
  | _, [_] => False
  | a, r :: b :: rest =>
    r.status = .retired ∧ r.keyId = a.keyId ∧ r.publicKey = a.publicKey ∧ r.registeredAt = a.registeredAt ∧
      r.supersededBy = some b.keyId ∧ b.status = .active ∧ Rotations b rest

/-- An active row, then rotations. -/
def Lifecycle : List KeyRow → Prop
  | [] => True
  | a :: rest => a.status = .active ∧ Rotations a rest

/-- The row that retires `a` in favour of `b`. -/
def Succeeds (a r b : KeyRow) : Prop :=
  r.status = .retired ∧ r.keyId = a.keyId ∧ r.publicKey = a.publicKey ∧ r.registeredAt = a.registeredAt ∧
    r.supersededBy = some b.keyId ∧ b.status = .active

theorem Rotations.even {a : KeyRow} {rest : List KeyRow} (h : Rotations a rest) : rest.length % 2 = 0 := by
  induction a, rest using Rotations.induct with
  | case1 a => rfl
  | case2 a r => exact h.elim
  | case3 a r b rest ih =>
    have := ih h.2.2.2.2.2.2
    simp only [List.length_cons]
    omega

/-- The last row is the active one, and the next rotation follows it. -/
theorem Rotations.concat {a : KeyRow} {rest : List KeyRow} (h : Rotations a rest) (ha : a.status = .active) :
    ∃ last, (a :: rest).getLast? = some last ∧ last.status = .active ∧
      ∀ r b, Succeeds last r b → Rotations a (rest ++ [r, b]) := by
  induction a, rest using Rotations.induct with
  | case1 a => exact ⟨a, rfl, ha, fun r b ⟨h₁, h₂, h₃, h₄, h₅, h₆⟩ => ⟨h₁, h₂, h₃, h₄, h₅, h₆, trivial⟩⟩
  | case2 a r => exact h.elim
  | case3 a r b rest ih =>
    obtain ⟨h₁, h₂, h₃, h₄, h₅, h₆, hrest⟩ := h
    obtain ⟨last, hlast, hactive, hnext⟩ := ih hrest h₆
    refine ⟨last, by simpa using hlast, hactive, fun r' b' hs => ?_⟩
    exact ⟨h₁, h₂, h₃, h₄, h₅, h₆, hnext r' b' hs⟩

/-- **The active key is that of the last row**, and a rotation of it keeps the shape. -/
theorem Lifecycle.last {rows : List KeyRow} (h : Lifecycle rows) {last : KeyRow} (hlast : rows.getLast? = some last) :
    last.status = .active ∧ ∀ r b, Succeeds last r b → Lifecycle (rows ++ [r, b]) := by
  cases rows with
  | nil => simp at hlast
  | cons a rest =>
    obtain ⟨last', hlast', hactive, hnext⟩ := h.2.concat h.1
    obtain rfl := Option.some.inj (hlast.symm.trans hlast')
    exact ⟨hactive, fun r b hs => ⟨h.1, hnext r b hs⟩⟩

/-- One row alone does not. -/
theorem Lifecycle.not_concat {rows : List KeyRow} (h : Lifecycle rows) (hne : rows ≠ []) (r : KeyRow) :
    ¬ Lifecycle (rows ++ [r]) := by
  cases rows with
  | nil => exact absurd rfl hne
  | cons a rest =>
    rw [List.cons_append]
    rintro ⟨-, hr⟩
    have heven := h.2.even
    have hodd := hr.even
    rw [List.length_append, List.length_singleton] at hodd
    omega

/-- The query for the active key finds the last row. -/
theorem Lifecycle.active_eq {rows : List KeyRow} (h : Lifecycle rows) :
    (rows.filter fun r => r.status = .active).getLast? = rows.getLast? := by
  cases hlast : rows.getLast? with
  | none => simp [List.getLast?_eq_none_iff.1 hlast]
  | some last =>
    obtain ⟨init, rfl⟩ := List.getLast?_eq_some_iff.1 hlast
    simp [(h.last hlast).1]

/-! ### Runs -/

/-- A call, with the time it reads. -/
inductive Call where
  | registerKey (now : String) (a : KeyArgs) (notes : Option PyStr)
  | registerOrUpdate (now : String) (a : KeyArgs)
  | rotateKey (now : String) (a : KeyArgs) (notes : Option PyStr)

/-- What a call answers, and the table after it. -/
def step (table : List KeyRow) : Call → Except PyErr (KeyRecord × Option KeyRecord) × List KeyRow
  | .registerKey now a notes =>
    let (result, table) := registerKey table now a notes
    (result.map fun r => (r, none), table)
  | .registerOrUpdate now a =>
    let (result, table) := registerOrUpdate table now a
    (result.map fun r => (r, none), table)
  | .rotateKey now a notes => rotateKey table now a notes

/-- The texts that only the row of the new key holds can be stored. -/
structure KeyArgs.Storable (a : KeyArgs) : Prop where
  publicKey : a.publicKey.toString?.isSome = true
  algorithm : a.algorithm.toString?.isSome = true
  source : a.source.toString?.isSome = true

/-- If the call retires a key, it can store the next one. -/
def Whole (table : List KeyRow) : Call → Prop
  | .registerKey _ _ _ => True
  | .registerOrUpdate _ a => ∀ k t, encode a.keyId = .ok k → encode a.tenantId = .ok t →
      selectActiveKey table k t = none → (selectActive table t).isSome = true → a.Storable
  | .rotateKey _ a notes => ∀ k t n, encode a.keyId = .ok k → encode a.tenantId = .ok t →
      Audit.encodable notes = .ok n → (selectActive table t).isSome = true → a.Storable

/-- What every call leaves: valid chains, the rows there were, active keys followed
by rotations. -/
structure Sound (before after : List KeyRow) : Prop where
  valid : ∀ t, ChainValid after t
  kept : before <+: after
  shape : ∀ t, Lifecycle (tenantRows after t)

theorem not_sound_of_shape {before after : List KeyRow} (h : ∃ t, ¬ Lifecycle (tenantRows after t)) :
    ¬ Sound before after := by
  obtain ⟨t, ht⟩ := h
  exact fun hsound => ht (hsound.shape t)

/-- What the calls keep. -/
structure RegInv (table : List KeyRow) : Prop where
  chained : Chained table
  shape : ∀ t, Lifecycle (tenantRows table t)

theorem RegInv.nil : RegInv [] := ⟨Chained.nil, fun _ => trivial⟩

theorem RegInv.selectActive_eq {table : List KeyRow} (h : RegInv table) (t : String) :
    selectActive table t = (tenantRows table t).getLast? := (h.shape t).active_eq

theorem encode_eq_ok {s : PyStr} {t : String} : encode s = .ok t ↔ s.toString? = some t := by
  rw [encode]
  cases s.toString? <;> simp

@[simp] theorem encode_ofString (s : String) : encode (.ofString s) = .ok s :=
  encode_eq_ok.2 (PyStr.toString?_ofString s)

theorem encode_isSome {s : PyStr} (h : s.toString?.isSome = true) : ∃ t, encode s = .ok t := by
  obtain ⟨t, ht⟩ := Option.isSome_iff_exists.1 h
  exact ⟨t, encode_eq_ok.2 ht⟩

/-- The columns of a key that becomes active. -/
theorem activeRow_content {a : KeyArgs} {now : String} {notes : Option PyStr} {c : KeyContent} :
    (a.activeRow now notes).content = .ok c ↔ ∃ k t p g s n, encode a.keyId = .ok k ∧ encode a.tenantId = .ok t ∧
      encode a.publicKey = .ok p ∧ encode a.algorithm = .ok g ∧ encode a.source = .ok s ∧
      Audit.encodable notes = .ok n ∧ c = ⟨k, t, p, g, s, .active, now, none, none, n⟩ := by
  simp only [RowArgs.content, KeyArgs.activeRow, bind_eq_ok_iff, Audit.encodable, Except.ok.injEq,
    exists_eq_left']
  constructor
  · rintro ⟨k, hk, t, ht, p, hp, g, hg, s, hs, n, hn, rfl⟩
    exact ⟨k, t, p, g, s, n, hk, ht, hp, hg, hs, hn, rfl⟩
  · rintro ⟨k, t, p, g, s, n, hk, ht, hp, hg, hs, hn, rfl⟩
    exact ⟨k, hk, t, ht, p, hp, g, hg, s, hs, n, hn, rfl⟩

/-- The columns of a row that retires a key. -/
theorem retiredRow_content {old : KeyRow} {now : String} {tenant key : PyStr} {notes : Option PyStr} {c : KeyContent} :
    (old.retiredRow now tenant key notes).content = .ok c ↔ ∃ t k n, encode tenant = .ok t ∧ encode key = .ok k ∧
      Audit.encodable notes = .ok n ∧ c = ⟨old.keyId, t, old.publicKey, old.algorithm, old.source, .retired,
        old.registeredAt, some now, some k, n⟩ := by
  have hkey : ∀ o, Audit.encodable (some key) = .ok o ↔ ∃ k, encode key = .ok k ∧ o = some k := by
    intro o
    rw [Audit.encodable, encode]
    cases key.toString? <;> simp [eq_comm]
  simp only [RowArgs.content, KeyRow.retiredRow, encode_ofString, bind_eq_ok_iff, Except.ok.injEq,
    exists_eq_left', hkey]
  constructor
  · rintro ⟨t, ht, _, ⟨k, hk, rfl⟩, n, hn, rfl⟩
    exact ⟨t, k, n, ht, hk, hn, rfl⟩
  · rintro ⟨t, k, n, ht, hk, hn, rfl⟩
    exact ⟨t, ht, _, ⟨k, hk, rfl⟩, n, hn, rfl⟩

section Calls

variable {table : List KeyRow} {now : String} {a : KeyArgs} {old : KeyRow} {t : String}

/-- The first key of a tenant. -/
theorem RegInv.insertFirst (h : RegInv table) (ht : encode a.tenantId = .ok t) (hnone : selectActive table t = none)
    (now : String) (notes : Option PyStr) :
    RegInv (insertRow table (a.activeRow now notes)).2 ∧ table <+: (insertRow table (a.activeRow now notes)).2 := by
  cases hc : (a.activeRow now notes).content with
  | error e => rw [insertRow_error hc]; exact ⟨h, List.prefix_rfl⟩
  | ok c =>
    rw [insertRow_ok h.chained hc]
    refine ⟨⟨h.chained.insert c, fun t' => ?_⟩, List.prefix_append _ _⟩
    rw [tenantRows_insert h.chained]
    split_ifs with ht'
    · obtain ⟨k, t₀, p, g, s, n, -, ht₀, -, -, -, -, rfl⟩ := activeRow_content.1 hc
      obtain rfl : t₀ = t := Except.ok.inj (ht₀.symm.trans ht)
      obtain rfl : t₀ = t' := ht'
      rw [h.selectActive_eq, List.getLast?_eq_none_iff] at hnone
      rw [hnone]
      exact ⟨rfl, trivial⟩
    · exact h.shape t'

/-- A rotation that stores the new key, if it retires the old one. -/
theorem RegInv.replaceKey (h : RegInv table) (ht : encode a.tenantId = .ok t) (hold : selectActive table t = some old)
    {retireNotes notes : Option PyStr} (hstore : ∀ k n, encode a.keyId = .ok k →
      Audit.encodable retireNotes = .ok n → a.Storable ∧ ∃ m, Audit.encodable notes = .ok m) :
    RegInv (replaceKey table now a old retireNotes notes).2 ∧
      table <+: (replaceKey table now a old retireNotes notes).2 := by
  rw [KeyRegistry.replaceKey]
  cases hc : (old.retiredRow now a.tenantId a.keyId retireNotes).content with
  | error e =>
    rw [insertRow_error hc]
    exact ⟨h, List.prefix_rfl⟩
  | ok c =>
    obtain ⟨t₀, k, n, ht₀, hk, hn, rfl⟩ := retiredRow_content.1 hc
    obtain rfl : t₀ = t := Except.ok.inj (ht₀.symm.trans ht)
    obtain ⟨⟨hp, hg, hs⟩, m, hm⟩ := hstore k n hk hn
    obtain ⟨p, hp⟩ := encode_isSome hp
    obtain ⟨g, hg⟩ := encode_isSome hg
    obtain ⟨s, hs⟩ := encode_isSome hs
    have hd : (a.activeRow now notes).content = .ok _ :=
      activeRow_content.2 ⟨k, t₀, p, g, s, m, hk, ht, hp, hg, hs, hm, rfl⟩
    have hchained := h.chained.insert ⟨old.keyId, t₀, old.publicKey, old.algorithm, old.source, .retired,
      old.registeredAt, some now, some k, n⟩
    rw [insertRow_ok h.chained hc]
    simp only
    rw [insertRow_ok hchained hd]
    refine ⟨⟨hchained.insert _, fun t' => ?_⟩, ?_⟩
    · rw [tenantRows_insert hchained, tenantRows_insert h.chained]
      split_ifs with ht'
      · -- the old key is that of the last row
        obtain rfl : t₀ = t' := ht'
        rw [h.selectActive_eq] at hold
        rw [List.append_assoc]
        exact ((h.shape t₀).last hold).2 _ _ ⟨rfl, rfl, rfl, rfl, rfl, rfl⟩
      · exact h.shape t'
    · exact (List.prefix_append _ _).trans (List.prefix_append _ _)

/-- A rotation that fails between its inserts. -/
theorem RegInv.replaceKey_half (h : RegInv table) (ht : encode a.tenantId = .ok t)
    (hold : selectActive table t = some old) {retireNotes notes : Option PyStr} {k : String} {n : Option String}
    (hk : encode a.keyId = .ok k) (hn : Audit.encodable retireNotes = .ok n) (hstore : ¬ a.Storable) :
    ¬ Lifecycle (tenantRows (KeyRegistry.replaceKey table now a old retireNotes notes).2 t) := by
  have hc : (old.retiredRow now a.tenantId a.keyId retireNotes).content = .ok _ :=
    retiredRow_content.2 ⟨t, k, n, ht, hk, hn, rfl⟩
  have hrows : tenantRows table t ≠ [] := by
    rw [h.selectActive_eq] at hold
    rintro hnil
    rw [hnil] at hold
    cases hold
  rw [KeyRegistry.replaceKey, insertRow_ok h.chained hc]
  cases hd : (a.activeRow now notes).content with
  | ok d =>
    obtain ⟨_, _, p, g, s, _, -, -, hp, hg, hs, -⟩ := activeRow_content.1 hd
    refine absurd ⟨?_, ?_, ?_⟩ hstore
    · rw [encode_eq_ok.1 hp]; rfl
    · rw [encode_eq_ok.1 hg]; rfl
    · rw [encode_eq_ok.1 hs]; rfl
  | error e =>
    simp only
    rw [insertRow_error hd]
    simp only
    rw [tenantRows_insert h.chained, if_pos rfl]
    exact (h.shape t).not_concat hrows _

/-- The active key of the tenant is active for `selectActiveKey` too. -/
theorem selectActiveKey_ne_none (hold : selectActive table t = some old) :
    selectActiveKey table old.keyId t ≠ none := by
  have hmem := List.mem_of_getLast? hold
  rw [List.mem_filter] at hmem
  rw [selectActiveKey, ne_eq, List.getLast?_eq_none_iff, List.filter_eq_nil_iff]
  intro hnone
  exact hnone old hmem.1 (by simpa using hmem.2)

/-- **A call that is whole** keeps the invariant and the rows. -/
theorem RegInv.step (h : RegInv table) {call : Call} (hw : Whole table call) :
    RegInv (step table call).2 ∧ table <+: (KeyRegistry.step table call).2 := by
  have hsame : RegInv table ∧ table <+: table := ⟨h, List.prefix_rfl⟩
  cases call with
  | registerKey now a notes =>
    simp only [KeyRegistry.step, registerKey]
    split
    · rename_i k t hk ht
      split
      · exact hsame
      · split
        · exact hsame
        · rename_i hnone
          exact h.insertFirst ht hnone now notes
    · exact hsame
    · exact hsame
  | registerOrUpdate now a =>
    simp only [KeyRegistry.step, registerOrUpdate]
    split
    · rename_i k t hk ht
      split
      · exact hsame
      · rename_i hfresh
        split
        · rename_i old hold
          have hne : old.keyId ≠ k := by
            rintro rfl
            exact selectActiveKey_ne_none hold hfresh
          rw [if_pos hne]
          refine h.replaceKey ht hold fun _ _ _ _ => ⟨?_, none, rfl⟩
          exact hw k t hk ht hfresh (by rw [hold]; rfl)
        · rename_i hnone
          exact h.insertFirst ht hnone now none
    · exact hsame
    · exact hsame
  | rotateKey now a notes =>
    simp only [KeyRegistry.step, rotateKey]
    split
    · exact hsame
    · rename_i t ht
      split
      · rename_i old hold
        refine h.replaceKey ht hold fun k n hk hn => ⟨?_, n, hn⟩
        exact hw k t n hk ht hn (by rw [hold]; rfl)
      · rename_i hnone
        exact h.insertFirst ht hnone now notes

/-- **A call that is not** leaves a key retired without a successor. -/
theorem RegInv.step_half (h : RegInv table) {call : Call} (hw : ¬ Whole table call) :
    ∃ t, ¬ Lifecycle (tenantRows (KeyRegistry.step table call).2 t) := by
  cases call with
  | registerKey now a notes => exact absurd trivial hw
  | registerOrUpdate now a =>
    simp only [Whole, not_forall] at hw
    obtain ⟨k, t, hk, ht, hfresh, hsome, hstore⟩ := hw
    obtain ⟨old, hold⟩ := Option.isSome_iff_exists.1 hsome
    have hne : old.keyId ≠ k := by
      rintro rfl
      exact selectActiveKey_ne_none hold hfresh
    refine ⟨t, ?_⟩
    simp only [KeyRegistry.step, registerOrUpdate, hk, ht, hfresh, hold, if_pos hne]
    exact h.replaceKey_half ht hold hk (by rw [autoRetired, Audit.encodable, PyStr.toString?_ofString]) hstore
  | rotateKey now a notes =>
    simp only [Whole, not_forall] at hw
    obtain ⟨k, t, n, hk, ht, hn, hsome, hstore⟩ := hw
    obtain ⟨old, hold⟩ := Option.isSome_iff_exists.1 hsome
    refine ⟨t, ?_⟩
    simp only [KeyRegistry.step, rotateKey, ht, hold]
    exact h.replaceKey_half ht hold hk hn hstore

end Calls

/-- **The key registry over whole runs.**  After every call of a run over an empty
table the chain of every tenant is valid, the rows from before the call are
unchanged, and every tenant's rows are an active one followed by rotations,
exactly if every call that retires a key can store its successor. -/
theorem registry_sound_iff (calls : List Call) :
    (∀ past call future, calls = past ++ call :: future →
      Sound (final step [] past) (final step [] (past ++ [call]))) ↔ Along step Whole [] calls := by
  constructor
  · -- from a table that satisfies the invariant on
    have hrun : ∀ (calls : List Call) (table : List KeyRow), RegInv table →
        (∀ past call future, calls = past ++ call :: future →
          Sound (final step table past) (final step table (past ++ [call]))) → Along step Whole table calls := by
      intro calls
      induction calls with
      | nil => exact fun _ _ _ => trivial
      | cons call calls ih =>
        intro table h hsound
        have hfirst : Sound table (step table call).2 := hsound [] call calls rfl
        have hw : Whole table call := by
          by_contra hw
          exact not_sound_of_shape (h.step_half hw) hfirst
        refine ⟨hw, ih _ (h.step hw).1 fun past c future hcalls => ?_⟩
        exact hsound (call :: past) c future (by rw [hcalls, List.cons_append])
    exact hrun calls [] RegInv.nil
  · rintro hgood past call future rfl
    obtain ⟨hpast, hw, -⟩ := Along.append.1 hgood
    have h : RegInv (final step [] past) := hpast.invariant (fun _ _ h hw => (h.step hw).1) RegInv.nil
    rw [final_concat]
    obtain ⟨hinv, hkept⟩ := h.step hw
    exact ⟨hinv.chained.valid, hkept, hinv.shape⟩

/-! ### A rotation that fails between its inserts -/

/-- A key of `bank`, its public key given. -/
def bankKey (keyId : String) (publicKey : PyStr) : KeyArgs where
  keyId := .ofString keyId
  publicKey := publicKey
  tenantId := .ofString "bank"
  algorithm := .ofString "Ed25519"
  source := .ofString "env"

/-- The first key of `bank`. -/
def firstKey : Call := .registerKey "2026-01-01T00:00:00Z" (bankKey "key-001" (.ofString "aa")) none

/-- A rotation to a key whose public key is the text `"\ud800"`. -/
def badRotation : Call := .rotateKey "2026-02-01T00:00:00Z" (bankKey "key-002" [.surrogate 0]) none

/-- The columns of its row. -/
def firstContent : KeyContent :=
  ⟨"key-001", "bank", "aa", "Ed25519", "env", .active, "2026-01-01T00:00:00Z", none, none, none⟩

theorem firstKey_inv : RegInv (step [] firstKey).2 := (RegInv.nil.step (show Whole [] firstKey from trivial)).1

theorem step_firstKey : (step [] firstKey).2 = [] ++ [nextRow [] firstContent] := by
  have hc : ((bankKey "key-001" (.ofString "aa")).activeRow "2026-01-01T00:00:00Z" none).content =
      .ok firstContent :=
    activeRow_content.2 ⟨"key-001", "bank", "aa", "Ed25519", "env", none, encode_ofString _, encode_ofString _,
      encode_ofString _, encode_ofString _, encode_ofString _, rfl, rfl⟩
  have hnone : selectActiveKey [] "key-001" "bank" = none := rfl
  have hactive : selectActive [] "bank" = none := rfl
  have hregister : registerKey [] "2026-01-01T00:00:00Z" (bankKey "key-001" (.ofString "aa")) none =
      insertRow [] ((bankKey "key-001" (.ofString "aa")).activeRow "2026-01-01T00:00:00Z" none) := by
    simp only [registerKey, bankKey, encode_ofString, hnone, hactive]
  rw [firstKey, step, hregister, insertRow_ok Chained.nil hc]

/-- The first key is stored. -/
theorem selectActive_firstKey : (selectActive (step [] firstKey).2 "bank").isSome = true := by
  have hrows : tenantRows (step [] firstKey).2 "bank" = tenantRows [] "bank" ++ [nextRow [] firstContent] := by
    rw [step_firstKey, tenantRows_insert Chained.nil, if_pos (show firstContent.tenantId = "bank" from rfl)]
  rw [firstKey_inv.selectActive_eq, hrows, List.getLast?_concat, Option.isSome_some]

/-- The retirement can be stored, the new key cannot. -/
theorem badRotation_not_whole : ¬ Whole (step [] firstKey).2 badRotation := by
  have hstore : ¬ (bankKey "key-002" [.surrogate 0]).Storable := fun h => absurd h.publicKey (by decide)
  intro hw
  rw [badRotation, Whole] at hw
  exact hstore (hw "key-002" "bank" none (encode_ofString "key-002") (encode_ofString "bank") rfl
    selectActive_firstKey)

/-- **The key is retired and has no successor**: `"\ud800"` cannot be stored, and the
row that retires `key-001` is committed by then. -/
theorem badRotation_not_sound :
    ¬ Sound (final step [] [firstKey]) (final step [] [firstKey, badRotation]) := by
  have hfinal : final step [] [firstKey, badRotation] = (step (step [] firstKey).2 badRotation).2 := by
    unfold final
    rw [List.foldl_cons, List.foldl_cons, List.foldl_nil]
  rw [hfinal]
  exact not_sound_of_shape (firstKey_inv.step_half badRotation_not_whole)

end KeyRegistry
end ProvableAi
