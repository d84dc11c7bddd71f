/-
# The PostgreSQL ledger

`postgres_storage.py`, class `PostgreSQLHardenedStorage`, over the tables of
migration `0001`: the statements its methods execute, the constraints the
database checks, and the errors that come of them.

Rows are those of `Storage.Tables`; the columns that this class fills otherwise
are `metadata_json`, written by a plain `json.dumps`, and `schema_version`, left
to its default.

`ChainBroken`, `SequenceGap` and `DuplicateSequenceId` are constructed with
keywords that `exceptions.py` does not know (`instance_id`, `got_hash`,
`expected`, `got`), so what is raised in their place is a `TypeError`.

`appendLedgerEntry` is the method without other clients;
`Storage.PostgresConcurrent` runs its statements one by one.
-/

import ProvableAi.Storage.Tables

namespace ProvableAi
namespace Postgres

/-! ### `json.dumps` with its defaults -/

/-- `\uXXXX`. -/
def escapeUnit (n : ℕ) : List Char :=
  ['\\', 'u', hexDigit (n / 4096 % 16), hexDigit (n / 256 % 16), hexDigit (n / 16 % 16), hexDigit (n % 16)]

/-- How a character stands inside a JSON string under `ensure_ascii=True`. -/
def asciiChar (c : Char) : List Char :=
  if c.toNat < 127 then escapeChar c
  else if c.toNat < 0x10000 then escapeUnit c.toNat
  else escapeUnit (0xd800 + (c.toNat - 0x10000) / 1024) ++ escapeUnit (0xdc00 + (c.toNat - 0x10000) % 1024)

/-- A JSON string in ASCII. -/
def asciiStr (s : String) : List Char := '"' :: s.toList.flatMap asciiChar ++ ['"']

mutual
/-- A value with a space after every comma and colon. -/
def spaced : Json → List Char
  | .str s => asciiStr s
  | .arr [] => ['[', ']']
  | .arr (x :: xs) => '[' :: (spaced x ++ spacedItems xs)
  | .obj [] => ['{', '}']
  | .obj ((k, x) :: kvs) => '{' :: (asciiStr k ++ ':' :: ' ' :: (spaced x ++ spacedMembers kvs))
  | v => render v

/-- The items after the first one. -/
def spacedItems : List Json → List Char
  | [] => [']']
  | x :: xs => ',' :: ' ' :: (spaced x ++ spacedItems xs)

/-- The members after the first one. -/
def spacedMembers : List (String × Json) → List Char
  | [] => ['}']
  | (k, x) :: kvs => ',' :: ' ' :: (asciiStr k ++ ':' :: ' ' :: (spaced x ++ spacedMembers kvs))
end

/-- `json.dumps(v)`. -/
def jsonDumps (v : Json) : String := String.ofList (spaced v)

/-! ### Tables -/

/-- A row of `instances`. -/
structure InstanceRow where
  tenantId : String
  instanceId : String
  currentState : String
  protocolHash : String
  deriving DecidableEq

/-- The tables. -/
structure Db where
  ledger : List LedgerRow
  instances : List InstanceRow
  approvedModels : List String
  approvedAgents : List String
  /-- `policy_version` and `active`. -/
  approvedPolicies : List (String × Bool)
  deriving DecidableEq

/-- A database that the migration has just created. -/
def Db.fresh : Db := ⟨[], [], [], [], []⟩

/-- A text that psycopg2 takes as a parameter. -/
def quotable (s : String) : Bool := !s.toList.contains (Char.ofNat 0)

/-- The texts of a statement are quoted. -/
def bindTexts (texts : List String) : Except PyErr Unit :=
  if texts.all quotable then .ok ()
  else .error (.valueError "A string literal cannot contain NUL (0x00) characters.")

/-! ### `append_ledger_entry` -/

/-- The row that is inserted. -/
def row (p : ProofDict) : LedgerRow :=
  { p.row with metadataJson := jsonDumps p.metadata, schemaVersion := "1.0" }

/-- `f"{tenant_id}:{instance_id}"`, the text whose hash is the lock key. -/
def lockText (p : ProofDict) : String := p.tenant ++ ":" ++ p.instanceId

/-- The checks against the row that was read. -/
def checkLink (last : Option LedgerRow) (p : ProofDict) : Except PyErr Unit :=
  match last with
  | none =>
    if p.previousHash ≠ genesisHash then .error .typeError  -- `ChainBroken(instance_id=…)`
    else if p.sequenceId ≠ 1 then .error .typeError  -- `SequenceGap(instance_id=…)`
    else .ok ()
  | some r =>
    if p.previousHash ≠ r.currentHash then .error .typeError
    else if p.sequenceId ≠ r.sequenceId + 1 then .error .typeError
    else .ok ()

/-- `INSERT INTO instances … ON CONFLICT … DO UPDATE`. -/
def upsertInstance (instances : List InstanceRow) (p : ProofDict) : List InstanceRow :=
  if instances.any fun r => r.tenantId = p.tenant ∧ r.instanceId = p.instanceId then
    instances.map fun r =>
      if r.tenantId = p.tenant ∧ r.instanceId = p.instanceId then { r with currentState := p.toState } else r
  else instances ++ [⟨p.tenant, p.instanceId, p.toState, p.policyVersion⟩]

/-- The texts that `INSERT INTO ledger` is given. -/
def insertTexts (p : ProofDict) : List String :=
  [p.tenant, p.instanceId, p.previousHash, p.currentHash, p.signatureValue, p.keyId, p.policyVersion,
    p.fromState, p.toState, p.modelVersion, p.agentVersion, jsonDumps p.metadata, dumps p.json, p.timestamp]

/-- An integer that an `INTEGER` column takes. -/
def fitsInteger (n : ℤ) : Bool := -(2 ^ 31) ≤ n && n < 2 ^ 31

/-- What is checked of the row by itself. -/
def checkRow (p : ProofDict) : Except PyErr Unit := do
  bindTexts (insertTexts p)
  if fitsInteger p.sequenceId then
    if p.currentHash.length = 64 ∧ p.signatureValue.length = 128 then .ok () else .error .checkViolation
  else .error .numericValueOutOfRange

/-- The two unique constraints of `ledger`. -/
def Unique (ledger : List LedgerRow) (p : ProofDict) : Prop :=
  ∀ r ∈ rowsOf ledger p.tenant p.instanceId, r.sequenceId ≠ p.sequenceId ∧ r.currentHash ≠ p.currentHash

instance (ledger : List LedgerRow) (p : ProofDict) : Decidable (Unique ledger p) :=
  inferInstanceAs (Decidable (∀ r ∈ _, _))

/-- `INSERT INTO ledger`; `UniqueViolation` becomes `DuplicateSequenceId(instance_id=…)`. -/
def insertLedger (ledger : List LedgerRow) (p : ProofDict) : Except PyErr (List LedgerRow) := do
  checkRow p
  if Unique ledger p then .ok (ledger ++ [row p]) else .error .typeError

/-- The transaction of `append_ledger_entry`. -/
def appendTxn (db : Db) (p : ProofDict) : Except PyErr Db := do
  bindTexts [p.tenant, p.instanceId]
  checkLink (lastRow db.ledger p.tenant p.instanceId) p
  bindTexts [p.tenant, p.instanceId, p.toState, p.policyVersion]
  let ledger ← insertLedger db.ledger p
  .ok { db with ledger := ledger, instances := upsertInstance db.instances p }

/-- `append_ledger_entry`: an exception rolls back. -/
def Db.appendLedgerEntry (db : Db) (p : ProofDict) : Except PyErr ℤ × Db :=
  match appendTxn db p with
  | .error e => (.error e, db)
  | .ok db' => (.ok p.sequenceId, db')

/-- `get_latest_ledger_entry`: not the row, but the proof in it. -/
def Db.getLatestLedgerEntry (db : Db) (instanceId tenantId : String) : Except PyErr (Option Json) := do
  bindTexts [tenantId, instanceId]
  match lastRow db.ledger tenantId instanceId with
  | none => .ok none
  | some r =>
    match loads r.proofJson with
    | some j => .ok (some j)
    | none => .error .jsonDecodeError

/-! ### Governance -/

/-- `INSERT … ON CONFLICT DO NOTHING`. -/
def insertVersion (versions : List String) (v : String) : List String :=
  if v ∈ versions then versions else versions ++ [v]

/-- `INSERT … ON CONFLICT (policy_version) DO UPDATE SET active = TRUE`. -/
def upsertPolicy (policies : List (String × Bool)) (v : String) : List (String × Bool) :=
  if policies.any fun r => r.1 = v then policies.map fun r => if r.1 = v then (r.1, true) else r
  else policies ++ [(v, true)]

/-- `UPDATE approved_policies SET active = FALSE WHERE policy_version = %s`. -/
def clearPolicy (policies : List (String × Bool)) (v : String) : List (String × Bool) :=
  policies.map fun r => if r.1 = v then (r.1, false) else r

/-- `get_approved_policies`. -/
def Db.policyVersions (db : Db) : List String := (db.approvedPolicies.filter Prod.snd).map Prod.fst

/-! ### A JSON text holds no NUL -/

/-- The characters of a parameter. -/
def NulFree (cs : List Char) : Prop := Char.ofNat 0 ∉ cs

instance (cs : List Char) : Decidable (NulFree cs) := inferInstanceAs (Decidable (_ ∉ cs))

theorem quotable_ofList {cs : List Char} (h : NulFree cs) : quotable (String.ofList cs) = true := by
  simpa [quotable, String.toList_ofList, NulFree] using h

theorem NulFree.append {cs ds : List Char} (hc : NulFree cs) (hd : NulFree ds) : NulFree (cs ++ ds) :=
  fun h => (List.mem_append.1 h).elim hc hd

theorem NulFree.cons {c : Char} {cs : List Char} (hc : Char.ofNat 0 ≠ c) (hs : NulFree cs) : NulFree (c :: cs) :=
  fun h => (List.mem_cons.1 h).elim hc hs

theorem NulFree.of_numeric {cs : List Char} (h : cs.all isNumChar = true) : NulFree cs :=
  fun hc => absurd (List.all_eq_true.1 h _ hc) (by decide)

theorem hexDigit_ne_nul : ∀ n < 16, Char.ofNat 0 ≠ hexDigit n := by decide

theorem escapeUnit_nulFree (n : ℕ) : NulFree (escapeUnit n) := by
  have h : ∀ m : ℕ, Char.ofNat 0 ≠ hexDigit (m % 16) := fun m => hexDigit_ne_nul _ (Nat.mod_lt _ (by decide))
  exact .cons (by decide) (.cons (by decide) (.cons (h _) (.cons (h _) (.cons (h _) (.cons (h _) nofun)))))

theorem escapeChar_nulFree (c : Char) : NulFree (escapeChar c) := by
  unfold escapeChar
  split_ifs with h₁ h₂ h₃ h₄ h₅ h₆ h₇ h₈
  iterate 7 exact .cons (by decide) (.cons (by decide) nofun)
  · have hhi : Char.ofNat 0 ≠ hexDigit (c.toNat / 16) := hexDigit_ne_nul _ (by omega)
    have hlo : Char.ofNat 0 ≠ hexDigit (c.toNat % 16) := hexDigit_ne_nul _ (by omega)
    exact .cons (by decide) (.cons (by decide) (.cons (by decide) (.cons (by decide)
      (.cons hhi (.cons hlo nofun)))))
  · refine .cons (fun h => h₈ ?_) nofun
    rw [← h]
    decide

theorem asciiChar_nulFree (c : Char) : NulFree (asciiChar c) := by
  unfold asciiChar
  split_ifs
  · exact escapeChar_nulFree c
  · exact escapeUnit_nulFree _
  · exact (escapeUnit_nulFree _).append (escapeUnit_nulFree _)

theorem renderStr_nulFree (s : String) : NulFree (renderStr s) := by
  refine .cons (by decide) ?_
  induction s.toList with
  | nil => exact .cons (by decide) nofun
  | cons c cs ih => exact (escapeChar_nulFree c).append ih

theorem asciiStr_nulFree (s : String) : NulFree (asciiStr s) := by
  refine .append (.cons (by decide) fun h => ?_) (.cons (by decide) nofun)
  obtain ⟨c, -, hc⟩ := List.mem_flatMap.1 h
  exact asciiChar_nulFree c hc

theorem renderItems_nulFree {xs : List Json} (h : ∀ x ∈ xs, NulFree (render x)) : NulFree (renderItems xs) := by
  induction xs with
  | nil => exact .cons (by decide) nofun
  | cons x xs ih =>
    exact .cons (by decide) ((h x List.mem_cons_self).append (ih fun y hy => h y (List.mem_cons_of_mem _ hy)))

theorem renderMembers_nulFree {kvs : List (String × Json)} (h : ∀ kv ∈ kvs, NulFree (render kv.2)) :
    NulFree (renderMembers kvs) := by
  induction kvs with
  | nil => exact .cons (by decide) nofun
  | cons kv kvs ih =>
    obtain ⟨k, x⟩ := kv
    exact .cons (by decide) ((renderStr_nulFree k).append (.cons (by decide)
      ((h (k, x) List.mem_cons_self).append (ih fun y hy => h y (List.mem_cons_of_mem _ hy)))))

theorem render_nulFree (j : Json) : NulFree (render j) := by
  induction j using Json.induct with
  | null => decide
  | bool b => cases b <;> decide
  | int n => exact .of_numeric (renderInt_numeric n)
  | float x => exact .of_numeric x.numeric
  | str s => exact renderStr_nulFree s
  | arr xs ih =>
    cases xs with
    | nil => decide
    | cons x xs =>
      exact .cons (by decide) ((ih x List.mem_cons_self).append
        (renderItems_nulFree fun y hy => ih y (List.mem_cons_of_mem _ hy)))
  | obj kvs ih =>
    cases kvs with
    | nil => decide
    | cons kv kvs =>
      exact .cons (by decide) ((renderStr_nulFree kv.1).append (.cons (by decide)
        ((ih kv List.mem_cons_self).append (renderMembers_nulFree fun y hy => ih y (List.mem_cons_of_mem _ hy)))))

theorem spacedItems_nulFree {xs : List Json} (h : ∀ x ∈ xs, NulFree (spaced x)) : NulFree (spacedItems xs) := by
  induction xs with
  | nil => exact .cons (by decide) nofun
  | cons x xs ih =>
    exact .cons (by decide) (.cons (by decide)
      ((h x List.mem_cons_self).append (ih fun y hy => h y (List.mem_cons_of_mem _ hy))))

theorem spacedMembers_nulFree {kvs : List (String × Json)} (h : ∀ kv ∈ kvs, NulFree (spaced kv.2)) :
    NulFree (spacedMembers kvs) := by
  induction kvs with
  | nil => exact .cons (by decide) nofun
  | cons kv kvs ih =>
    obtain ⟨k, x⟩ := kv
    exact .cons (by decide) (.cons (by decide) ((asciiStr_nulFree k).append (.cons (by decide) (.cons (by decide)
      ((h (k, x) List.mem_cons_self).append (ih fun y hy => h y (List.mem_cons_of_mem _ hy)))))))

theorem spaced_nulFree (j : Json) : NulFree (spaced j) := by
  induction j using Json.induct with
  | str s => exact asciiStr_nulFree s
  | arr xs ih =>
    cases xs with
    | nil => decide
    | cons x xs =>
      exact .cons (by decide) ((ih x List.mem_cons_self).append
        (spacedItems_nulFree fun y hy => ih y (List.mem_cons_of_mem _ hy)))
  | obj kvs ih =>
    cases kvs with
    | nil => decide
    | cons kv kvs =>
      exact .cons (by decide) ((asciiStr_nulFree kv.1).append (.cons (by decide) (.cons (by decide)
        ((ih kv List.mem_cons_self).append
          (spacedMembers_nulFree fun y hy => ih y (List.mem_cons_of_mem _ hy))))))
  | null => exact render_nulFree .null
  | bool b => exact render_nulFree (.bool b)
  | int n => exact render_nulFree (.int n)
  | float x => exact render_nulFree (.float x)

/-- **Both JSON texts of a proof can be bound.** -/
theorem quotable_dumps (j : Json) : quotable (dumps j) = true := quotable_ofList (render_nulFree _)

theorem quotable_jsonDumps (j : Json) : quotable (jsonDumps j) = true := quotable_ofList (spaced_nulFree j)

/-! ### What the append does -/

theorem bindTexts_eq_ok {texts : List String} : bindTexts texts = .ok () ↔ ∀ s ∈ texts, quotable s = true := by
  rw [bindTexts]
  split_ifs with h
  · exact ⟨fun _ => List.all_eq_true.1 h, fun _ => rfl⟩
  · exact ⟨nofun, fun hall => absurd (List.all_eq_true.2 hall) h⟩

/-- The row continues the one that was read. -/
def Continues (last : Option LedgerRow) (p : ProofDict) : Prop :=
  p.previousHash = (last.map LedgerRow.currentHash).getD genesisHash ∧
    p.sequenceId = (last.map LedgerRow.sequenceId).getD 0 + 1

theorem checkLink_eq_ok {last : Option LedgerRow} {p : ProofDict} :
    checkLink last p = .ok () ↔ Continues last p := by
  cases last with
  | none =>
    simp only [checkLink, Continues, Option.map_none, Option.getD_none, zero_add]
    split_ifs with h₁ h₂
    · exact ⟨nofun, fun h => absurd h.1 h₁⟩
    · exact ⟨nofun, fun h => absurd h.2 h₂⟩
    · exact ⟨fun _ => ⟨not_not.1 h₁, not_not.1 h₂⟩, fun _ => rfl⟩
  | some r =>
    simp only [checkLink, Continues, Option.map_some, Option.getD_some]
    split_ifs with h₁ h₂
    · exact ⟨nofun, fun h => absurd h.1 h₁⟩
    · exact ⟨nofun, fun h => absurd h.2 h₂⟩
    · exact ⟨fun _ => ⟨not_not.1 h₁, not_not.1 h₂⟩, fun _ => rfl⟩

/-- **A row that continues some row of its chain and passes the unique constraint
continues the last one.**  However old the row that was read is, the ledger stays
chained. -/
theorem Chained.concat_of_continues {l : List LedgerRow} (h : Chained l) {p : ProofDict}
    {last : Option LedgerRow} (hlast : ∀ r ∈ last, r ∈ rowsOf l p.tenant p.instanceId)
    (hc : Continues last p) (hu : ∀ r ∈ rowsOf l p.tenant p.instanceId, r.sequenceId ≠ p.sequenceId) :
    Chained (l ++ [row p]) := by
  have hl := h p.tenant p.instanceId
  obtain ⟨hprev, hseq⟩ := hc
  cases last with
  | none =>
    -- the number is one, so there is no row yet
    have hone : p.sequenceId = 1 := hseq
    have hnil : rowsOf l p.tenant p.instanceId = [] :=
      hl.eq_nil_of_fresh fun r hr => hone ▸ hu r hr
    refine h.concat (r := row p) ?_ ?_
    · simpa [row, ProofDict.row, hnil] using hone
    · simpa [row, ProofDict.row, hnil] using hprev
  | some r =>
    -- no row carries the next number, so the row that was read is the last
    have hnext : p.sequenceId = r.sequenceId + 1 := hseq
    obtain ⟨hlen, htip⟩ := hl.last_of_fresh (hlast r rfl) fun f hf => hnext ▸ hu f hf
    have hlen : r.sequenceId + 1 = 1 + ((rowsOf l p.tenant p.instanceId).length : ℤ) := hlen
    refine h.concat (r := row p) ?_ ?_
    · exact (hnext.trans hlen).trans (add_comm _ _)
    · exact hprev.trans htip.symm

end Postgres
end ProvableAi
