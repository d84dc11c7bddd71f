/-
# Retrying an append

`_with_retry` of `postgres_storage.py` around `append_ledger_entry`: an attempt
that ends in a `psycopg2.Error` with a transient SQLSTATE is made again, up to
`ZORYNEX_RETRY_MAX` attempts.  A failure strikes an attempt at one of its
statements, or at the commit before it takes effect or after.  `acquire` rolls
back before it passes the exception on, and on a connection that is closed
`rollback` raises an `InterfaceError` of its own, which has no SQLSTATE.  Between
two attempts other clients commit what they like, but for the rows of the
instance.

An attempt that failed before its commit left nothing behind, so the next one
meets the state the first one met.  After a commit it meets its own row, which it
does not know for its own, and is refused.  `retry_transparent_iff`: the outcome
is the one without failures exactly if no failure strikes after the commit and
none takes the SQLSTATE away.
-/

import ProvableAi.Storage.Postgres

namespace ProvableAi
namespace Postgres

/-! ### Failures -/

/-- `_TRANSIENT_CODES`. -/
def transientCodes : List String := ["40001", "40P01", "57P01", "57P02", "08006", "08001", "08004"]

/-- What an attempt raises: an exception of the code or of a constraint, or an error of
the driver with its `pgcode`. -/
inductive Raised where
  | py (e : PyErr)
  | driver (pgcode : Option String)
  deriving DecidableEq

/-- The SQLSTATE that `_with_retry` sees; empty where the exception has none or is no
`psycopg2.Error`. -/
def Raised.code : Raised → String
  | .driver (some c) => c
  | .py .checkViolation => "23514"
  | .py .numericValueOutOfRange => "22003"
  | _ => ""

/-- The error is retried. -/
def Raised.transient (e : Raised) : Bool := transientCodes.contains e.code

/-- Where a failure strikes an attempt. -/
inductive Point where
  /-- taking a connection from the pool -/
  | getconn
  /-- `SELECT pg_try_advisory_xact_lock` -/
  | lock
  /-- `SELECT … FOR UPDATE SKIP LOCKED` -/
  | select
  /-- `INSERT INTO instances` -/
  | upsert
  /-- `INSERT INTO ledger` -/
  | insert
  /-- the commit, which does not take effect -/
  | commit
  /-- the commit, which has taken effect -/
  | acknowledge
  deriving DecidableEq

/-- A transient failure of an attempt to append `p`, and what other clients commit before
the next attempt. -/
structure Failure (p : ProofDict) where
  point : Point
  code : String
  transient : code ∈ transientCodes
  /-- The connection is closed, so `conn.rollback()` raises `InterfaceError`. -/
  rollbackRaises : Bool
  others : Db → Db
  elsewhere : ∀ db, rowsOf (others db).ledger p.tenant p.instanceId = rowsOf db.ledger p.tenant p.instanceId

variable {p : ProofDict}

/-- What `acquire` passes on; without a connection there is nothing to roll back. -/
def Failure.raised (f : Failure p) : Raised :=
  if f.point ≠ .getconn ∧ f.rollbackRaises then .driver none else .driver (some f.code)

/-! ### Attempts -/

/-- The failure strikes here. -/
def strike (f : Option (Failure p)) (q : Point) : Except Raised Unit :=
  match f with
  | some f => if f.point = q then .error f.raised else .ok ()
  | none => .ok ()

/-- What the code or the database raises by itself. -/
def raising {α : Type} (x : Except PyErr α) : Except Raised α := x.mapError .py

/-- The transaction of `append_ledger_entry` up to its commit, which a failure may strike. -/
def attemptTxn (p : ProofDict) (f : Option (Failure p)) (db : Db) : Except Raised Db := do
  strike f .getconn
  strike f .lock
  raising (bindTexts [p.tenant, p.instanceId])
  strike f .select
  raising (checkLink (lastRow db.ledger p.tenant p.instanceId) p)
  raising (bindTexts [p.tenant, p.instanceId, p.toState, p.policyVersion])
  strike f .upsert
  raising (bindTexts (insertTexts p))
  strike f .insert
  let ledger ← raising (insertLedger db.ledger p)
  strike f .commit
  .ok { db with ledger := ledger, instances := upsertInstance db.instances p }

/-- One call of `append_ledger_entry`: what it raises or returns, and the committed tables. -/
def attempt (p : ProofDict) (f : Option (Failure p)) (db : Db) : Except Raised ℤ × Db :=
  match attemptTxn p f db with
  | .error e => (.error e, db)
  | .ok db' =>
    match strike f .acknowledge with
    | .error e => (.error e, db')
    | .ok _ => (.ok p.sequenceId, db')

/-- The loop of `_with_retry` with `n` attempts to go, of which the next ones meet the
failures in turn. -/
def retryLoop (p : ProofDict) (maxRetries : ℤ) : ℕ → List (Failure p) → Db → Except Raised ℤ × Db
  | 0, _, db => (.error (.py (.storageUnavailable ("All " ++ toString maxRetries ++ " retries exhausted"))), db)
  | n + 1, fs, db =>
    match attempt p fs.head? db with
    | (.ok v, db') => (.ok v, db')
    | (.error e, db') =>
      if e.transient ∧ n ≠ 0 then
        retryLoop p maxRetries n fs.tail (match fs.head? with | some f => f.others db' | none => db')
      else (.error e, db')

/-- `append_ledger_entry` as `_with_retry` has wrapped it. -/
def Db.appendWithRetry (db : Db) (p : ProofDict) (maxRetries : ℤ) (fs : List (Failure p)) : Except Raised ℤ × Db :=
  retryLoop p maxRetries maxRetries.toNat fs db

/-- The failure strikes before the commit takes effect and is still told by its SQLSTATE. -/
def Failure.Harmless (f : Failure p) : Prop :=
  f.point ≠ .acknowledge ∧ (f.point = .getconn ∨ f.rollbackRaises = false)

instance (f : Failure p) : Decidable f.Harmless := inferInstanceAs (Decidable (_ ∧ _))

/-! ### What one attempt does -/

/-- The append is accepted: every check of the transaction passes. -/
structure Accepted (db : Db) (p : ProofDict) : Prop where
  select : bindTexts [p.tenant, p.instanceId] = .ok ()
  link : checkLink (lastRow db.ledger p.tenant p.instanceId) p = .ok ()
  upsert : bindTexts [p.tenant, p.instanceId, p.toState, p.policyVersion] = .ok ()
  checked : checkRow p = .ok ()
  unique : Unique db.ledger p

/-- The tables after the append. -/
def Db.appended (db : Db) (p : ProofDict) : Db :=
  { db with ledger := db.ledger ++ [row p], instances := upsertInstance db.instances p }

variable {db db' : Db} {n : ℤ}

theorem Accepted.insert (h : Accepted db p) : insertLedger db.ledger p = .ok (db.ledger ++ [row p]) := by
  rw [insertLedger, h.checked]
  exact if_pos h.unique

theorem Accepted.texts (h : Accepted db p) : bindTexts (insertTexts p) = .ok () := by
  have hchecked := h.checked
  rw [checkRow] at hchecked
  cases ht : bindTexts (insertTexts p) with
  | ok u => rfl
  | error e =>
    rw [ht] at hchecked
    cases hchecked

/-- **What the failure-free append returns**: the number, exactly if it is accepted. -/
theorem appendLedgerEntry_ok_iff : (db.appendLedgerEntry p).1 = .ok n ↔ Accepted db p ∧ n = p.sequenceId := by
  constructor
  · intro h
    rw [Db.appendLedgerEntry] at h
    cases htxn : appendTxn db p with
    | error e =>
      rw [htxn] at h
      cases h
    | ok db' =>
      rw [htxn] at h
      refine ⟨?_, (Except.ok.inj h).symm⟩
      simp only [appendTxn, bind_eq_ok_iff] at htxn
      obtain ⟨⟨⟩, hselect, ⟨⟩, hlink, ⟨⟩, hupsert, ledger, hinsert, -⟩ := htxn
      rw [insertLedger, bind_eq_ok_iff] at hinsert
      obtain ⟨⟨⟩, hchecked, hunique⟩ := hinsert
      refine ⟨hselect, hlink, hupsert, hchecked, ?_⟩
      by_contra hno
      rw [if_neg hno] at hunique
      cases hunique
  · rintro ⟨h, rfl⟩
    rw [Db.appendLedgerEntry, appendTxn, h.select, h.link, h.upsert, h.insert]
    rfl

/-- Whether the append is accepted depends on the rows of its instance only. -/
theorem Accepted.congr (h : Accepted db p)
    (hrows : rowsOf db'.ledger p.tenant p.instanceId = rowsOf db.ledger p.tenant p.instanceId) : Accepted db' p where
  select := h.select
  link := by
    rw [lastRow, hrows]
    exact h.link
  upsert := h.upsert
  checked := h.checked
  unique := by
    rw [Unique, hrows]
    exact h.unique

theorem strike_of_ne {f : Option (Failure p)} {q : Point} (h : ∀ g ∈ f, g.point ≠ q) : strike f q = .ok () := by
  cases f with
  | none => rfl
  | some g => exact if_neg (h g rfl)

theorem strike_self (f : Failure p) : strike (some f) f.point = .error f.raised := if_pos rfl

/-- An attempt that no failure strikes before the end commits. -/
theorem attemptTxn_ok (h : Accepted db p) {f : Option (Failure p)} (hf : ∀ g ∈ f, g.point = .acknowledge) :
    attemptTxn p f db = .ok (db.appended p) := by
  have hstrike : ∀ q : Point, q ≠ .acknowledge → strike f q = .ok () := fun q hq =>
    strike_of_ne fun g hg => by
      rw [hf g hg]
      exact hq.symm
  simp only [attemptTxn, hstrike, h.select, h.link, h.upsert, h.texts, h.insert, ne_eq, reduceCtorEq, not_false_eq_true,
    raising, Except.mapError]
  rfl

/-- A failure before the commit takes effect. -/
theorem attemptTxn_struck (h : Accepted db p) {f : Failure p} (hf : f.point ≠ .acknowledge) :
    attemptTxn p (some f) db = .error f.raised := by
  cases hpoint : f.point <;>
    first
    | exact absurd hpoint hf
    | simp only [attemptTxn, strike, hpoint, h.select, h.link, h.upsert, h.texts, h.insert, raising, Except.mapError,
        reduceCtorEq, if_true, if_false]
      rfl

theorem attempt_quiet (h : Accepted db p) : attempt p none db = (.ok p.sequenceId, db.appended p) := by
  rw [attempt, attemptTxn_ok h (by simp)]
  rfl

theorem attempt_struck (h : Accepted db p) {f : Failure p} (hf : f.point ≠ .acknowledge) :
    attempt p (some f) db = (.error f.raised, db) := by
  rw [attempt, attemptTxn_struck h hf]

theorem attempt_acknowledge (h : Accepted db p) {f : Failure p} (hf : f.point = .acknowledge) :
    attempt p (some f) db = (.error f.raised, db.appended p) := by
  have hstrike := strike_self f
  rw [hf] at hstrike
  rw [attempt, attemptTxn_ok h (by simpa using hf)]
  simp only [hstrike]

/-- Where the row does not continue the last one, no attempt returns or commits. -/
theorem attempt_refused (h : ¬ Continues (lastRow db.ledger p.tenant p.instanceId) p) (f : Option (Failure p)) :
    ∃ e, attempt p f db = (.error e, db) := by
  have herror : ∃ e, attemptTxn p f db = .error e := by
    cases hres : attemptTxn p f db with
    | error e => exact ⟨e, rfl⟩
    | ok db' =>
      simp only [attemptTxn, bind_eq_ok_iff] at hres
      obtain ⟨-, -, -, -, -, -, -, -, ⟨⟩, hlink, -⟩ := hres
      refine absurd (checkLink_eq_ok.1 ?_) h
      cases hc : checkLink (lastRow db.ledger p.tenant p.instanceId) p with
      | ok u => rfl
      | error e =>
        rw [hc] at hlink
        cases hlink
  obtain ⟨e, he⟩ := herror
  exact ⟨e, by rw [attempt, he]⟩

/-! ### What the loop does -/

theorem Failure.Harmless.raised {f : Failure p} (h : f.Harmless) : f.raised = .driver (some f.code) := by
  rw [Failure.raised, if_neg]
  rintro ⟨hconn, hraises⟩
  rcases h.2 with hpoint | hok
  · exact hconn hpoint
  · rw [hok] at hraises
    cases hraises

theorem Failure.transient_code (f : Failure p) : (Raised.driver (some f.code)).transient = true :=
  List.contains_iff_mem.2 f.transient

/-- The rows of the instance after the append. -/
theorem rowsOf_appended (db : Db) (p : ProofDict) :
    rowsOf (db.appended p).ledger p.tenant p.instanceId = rowsOf db.ledger p.tenant p.instanceId ++ [row p] := by
  rw [Db.appended, rowsOf_append]
  exact congrArg _ (rowsOf_self (row p))

/-- **The row of an append refuses the same append.** -/
theorem not_continues_appended
    (hrows : rowsOf db'.ledger p.tenant p.instanceId = rowsOf db.ledger p.tenant p.instanceId ++ [row p]) :
    ¬ Continues (lastRow db'.ledger p.tenant p.instanceId) p := by
  have hmem : row p ∈ rowsOf db'.ledger p.tenant p.instanceId := by
    rw [hrows]
    simp
  cases hlast : lastRow db'.ledger p.tenant p.instanceId with
  | none => exact absurd (List.argmax_eq_none.1 hlast) (List.ne_nil_of_mem hmem)
  | some r =>
    -- the last row has no smaller number
    have hle : p.sequenceId ≤ r.sequenceId := List.le_of_mem_argmax hmem hlast
    rintro ⟨-, hseq⟩
    have hnext : p.sequenceId = r.sequenceId + 1 := hseq
    omega

variable {maxRetries : ℤ}

/-- A call that does not continue the chain does not return, however often it is made. -/
theorem retryLoop_refused (k : ℕ) : ∀ (fs : List (Failure p)) (db : Db),
    ¬ Continues (lastRow db.ledger p.tenant p.instanceId) p → ∀ v, (retryLoop p maxRetries k fs db).1 ≠ .ok v := by
  induction k with
  | zero =>
    intro fs db _ v h
    cases h
  | succ k ih =>
    intro fs db hrefused v
    obtain ⟨e, he⟩ := attempt_refused hrefused fs.head?
    rw [retryLoop, he]
    simp only
    split_ifs
    · refine ih _ _ ?_ v
      cases fs with
      | nil => exact hrefused
      | cons f fs =>
        rw [lastRow] at hrefused ⊢
        rw [List.head?_cons, f.elsewhere]
        exact hrefused
    · exact nofun

/-- **Harmless failures change nothing**, while there is an attempt for each and one more. -/
theorem retryLoop_harmless {fs : List (Failure p)} : ∀ {k : ℕ} {db : Db}, Accepted db p → (∀ f ∈ fs, f.Harmless) →
    fs.length < k → (retryLoop p maxRetries k fs db).1 = .ok p.sequenceId ∧
      rowsOf (retryLoop p maxRetries k fs db).2.ledger p.tenant p.instanceId =
        rowsOf db.ledger p.tenant p.instanceId ++ [row p] := by
  induction fs with
  | nil =>
    intro k db h _ hk
    obtain ⟨m, rfl⟩ := Nat.exists_eq_succ_of_ne_zero (show k ≠ 0 from Nat.ne_zero_of_lt hk)
    rw [retryLoop, List.head?_nil, attempt_quiet h]
    exact ⟨rfl, rowsOf_appended db p⟩
  | cons f fs ih =>
    intro k db h hfs hk
    rw [List.length_cons] at hk
    obtain ⟨m, rfl⟩ := Nat.exists_eq_succ_of_ne_zero (show k ≠ 0 by omega)
    have hf := hfs f (List.mem_cons_self ..)
    have hretry : f.raised.transient = true ∧ m ≠ 0 := ⟨by rw [hf.raised]; exact f.transient_code, by omega⟩
    have hnext := ih (h.congr (f.elsewhere db)) (fun g hg => hfs g (List.mem_cons_of_mem _ hg))
      (show fs.length < m by omega)
    rw [f.elsewhere db] at hnext
    rw [retryLoop, List.head?_cons, attempt_struck h hf.1]
    simp only [if_pos hretry, List.tail_cons]
    exact hnext

/-- A failure that is not harmless keeps the call from returning. -/
theorem retryLoop_harmful {fs : List (Failure p)} : ∀ {k : ℕ} {db : Db}, Accepted db p →
    (∃ f ∈ fs, ¬ f.Harmless) → ∀ v, (retryLoop p maxRetries k fs db).1 ≠ .ok v := by
  induction fs with
  | nil =>
    rintro k db - ⟨f, hf, -⟩
    cases hf
  | cons f fs ih =>
    intro k db h hfs v
    cases k with
    | zero => exact nofun
    | succ k =>
      rw [retryLoop, List.head?_cons]
      by_cases hpoint : f.point = .acknowledge
      · -- the next attempt meets the row of this one
        have hrows : rowsOf (f.others (db.appended p)).ledger p.tenant p.instanceId =
            rowsOf db.ledger p.tenant p.instanceId ++ [row p] := by
          rw [f.elsewhere, rowsOf_appended]
        rw [attempt_acknowledge h hpoint]
        simp only
        split_ifs
        · exact retryLoop_refused k _ _ (not_continues_appended hrows) v
        · exact nofun
      · rw [attempt_struck h hpoint]
        simp only
        split_ifs with hretry
        · have hf : f.Harmless := by
            refine ⟨hpoint, ?_⟩
            by_contra hno
            rw [not_or, Bool.not_eq_false] at hno
            rw [Failure.raised, if_pos hno] at hretry
            exact absurd hretry.1 (by decide)
          obtain ⟨g, hg, hharm⟩ := hfs
          have hrest : g ∈ fs := (List.mem_cons.1 hg).resolve_left fun heq => hharm (heq ▸ hf)
          exact ih (h.congr (f.elsewhere db)) ⟨g, hrest, hharm⟩ v
        · exact nofun

/-- **Retries are transparent exactly for harmless failures.**  For any proof that the
failure-free append accepts, any number of attempts and any transient failures of fewer of
them, the call returns the same number and adds the one row exactly if no failure strikes
after a commit has taken effect and none loses its SQLSTATE to a closed connection. -/
theorem retry_transparent_iff {fs : List (Failure p)} (hlen : (fs.length : ℤ) < maxRetries)
    (hok : (db.appendLedgerEntry p).1 = .ok n) :
    ((db.appendWithRetry p maxRetries fs).1 = .ok n ∧
      rowsOf (db.appendWithRetry p maxRetries fs).2.ledger p.tenant p.instanceId =
        rowsOf db.ledger p.tenant p.instanceId ++ [row p]) ↔ ∀ f ∈ fs, f.Harmless := by
  obtain ⟨h, rfl⟩ := appendLedgerEntry_ok_iff.1 hok
  constructor
  · rintro ⟨hreturns, -⟩
    by_contra hno
    push Not at hno
    exact retryLoop_harmful h hno _ hreturns
  · exact fun hfs => retryLoop_harmless h hfs (by omega)

/-! ### A commit that is not acknowledged -/

theorem checkLink_eq_error {last : Option LedgerRow} (h : ¬ Continues last p) : checkLink last p = .error .typeError := by
  cases hc : checkLink last p with
  | ok u => exact absurd (checkLink_eq_ok.1 hc) h
  | error e =>
    cases last with
    | none =>
      rw [checkLink] at hc
      split_ifs at hc <;> exact congrArg _ (Except.error.inj hc).symm
    | some r =>
      rw [checkLink] at hc
      split_ifs at hc <;> exact congrArg _ (Except.error.inj hc).symm

/-- **A lost acknowledgement.**  The row is there, and the next attempt raises what the
constructor of `ChainBroken` or `SequenceGap` does. -/
theorem appendWithRetry_acknowledge (h : Accepted db p) {f : Failure p} (hpoint : f.point = .acknowledge)
    (hopen : f.rollbackRaises = false) (hmax : 2 ≤ maxRetries) :
    db.appendWithRetry p maxRetries [f] = (.error (.py .typeError), f.others (db.appended p)) := by
  have hrows : rowsOf (f.others (db.appended p)).ledger p.tenant p.instanceId =
      rowsOf db.ledger p.tenant p.instanceId ++ [row p] := by
    rw [f.elsewhere, rowsOf_appended]
  have hagain : attempt p none (f.others (db.appended p)) =
      (.error (.py .typeError), f.others (db.appended p)) := by
    rw [attempt, attemptTxn]
    simp only [strike, raising, h.select, checkLink_eq_error (not_continues_appended hrows)]
    rfl
  obtain ⟨k, hk⟩ : ∃ k, maxRetries.toNat = k + 2 := ⟨maxRetries.toNat - 2, by omega⟩
  have hraised : f.raised = .driver (some f.code) := if_neg (by simp [hopen])
  have hretry : f.raised.transient = true ∧ k + 1 ≠ 0 := ⟨by rw [hraised]; exact f.transient_code, by omega⟩
  rw [Db.appendWithRetry, hk, retryLoop, List.head?_cons, attempt_acknowledge h hpoint]
  simp only [if_pos hretry]
  rw [retryLoop, List.tail_cons, List.head?_nil, hagain]
  exact if_neg fun hagain => absurd hagain.1 (by decide)

/-- The first proof of an instance. -/
def firstProof : ProofDict where
  tenantId := some "acme"
  instanceId := "loan_1"
  sequenceId := 1
  previousHash := genesisHash
  currentHash := String.ofList (List.replicate 64 'a')
  timestamp := "2024-01-01T00:00:00Z"
  fromState := "submitted"
  toState := "approved"
  modelVersion := "gpt-4"
  agentVersion := "1.0"
  policyVersion := "v1"
  metadata := .obj []
  signatureValue := String.ofList (List.replicate 128 'b')
  keyId := "key-1"
  type := none
  json := .obj []

theorem connectionFailure_mem : "08006" ∈ transientCodes := by decide

/-- The connection fails at a point; nobody else writes. -/
def connectionFailure (point : Point) : Failure firstProof where
  point := point
  code := "08006"
  transient := connectionFailure_mem
  rollbackRaises := false
  others := id
  elsewhere _ := rfl

theorem firstProof_texts : ∀ s ∈ insertTexts firstProof, quotable s = true := by
  have hletter : ∀ (k : ℕ) (c : Char), c ≠ Char.ofNat 0 → quotable (String.ofList (List.replicate k c)) = true := by
    intro k c hc
    exact quotable_ofList fun h => hc (List.eq_of_mem_replicate h).symm
  simp only [insertTexts, firstProof, List.forall_mem_cons, ProofDict.tenant, Option.getD_some, quotable_jsonDumps,
    quotable_dumps]
  refine ⟨?_, ?_, hletter _ _ (by decide), hletter _ _ (by decide), hletter _ _ (by decide), ?_⟩ <;> simp [quotable]

theorem firstProof_accepted : Accepted Db.fresh firstProof := by
  have hall : ∀ p : ProofDict, ∀ s ∈ [p.tenant, p.instanceId, p.toState, p.policyVersion], s ∈ insertTexts p := by
    intro p
    simp [insertTexts]
  have hupsert := fun s hs => firstProof_texts s (hall firstProof s hs)
  have hlengths : firstProof.currentHash.length = 64 ∧ firstProof.signatureValue.length = 128 :=
    ⟨String.length_ofList.trans List.length_replicate, String.length_ofList.trans List.length_replicate⟩
  refine ⟨bindTexts_eq_ok.2 fun s hs => hupsert s ?_, rfl, bindTexts_eq_ok.2 hupsert, ?_, fun r hr => by cases hr⟩
  · exact List.mem_of_mem_take (i := 2) hs
  · have hfits : fitsInteger firstProof.sequenceId = true := by decide
    rw [checkRow, bindTexts_eq_ok.2 firstProof_texts, ok_bind, if_pos hfits, if_pos hlengths]

theorem appendLedgerEntry_firstProof : (Db.fresh.appendLedgerEntry firstProof).1 = .ok 1 :=
  appendLedgerEntry_ok_iff.2 ⟨firstProof_accepted, rfl⟩

/-- The hypotheses are satisfiable: the connection fails before the commit takes effect. -/
theorem retry_transparent_commit :
    (([connectionFailure .commit] : List (Failure firstProof)).length : ℤ) < 3 ∧
      (((Db.fresh.appendWithRetry firstProof 3 [connectionFailure .commit]).1 = .ok 1 ∧
        rowsOf (Db.fresh.appendWithRetry firstProof 3 [connectionFailure .commit]).2.ledger firstProof.tenant
          firstProof.instanceId = rowsOf Db.fresh.ledger firstProof.tenant firstProof.instanceId ++ [row firstProof]) ↔
        ∀ f ∈ [connectionFailure .commit], f.Harmless) :=
  ⟨by decide, retry_transparent_iff (by decide) appendLedgerEntry_firstProof⟩

/-- The connection fails once after the commit, and there are two attempts to go. -/
theorem acknowledgement_lost :
    (Db.fresh.appendLedgerEntry firstProof).1 = .ok 1 ∧
      (([connectionFailure .acknowledge] : List (Failure firstProof)).length : ℤ) < 3 ∧
      (Db.fresh.appendWithRetry firstProof 3 [connectionFailure .acknowledge]).1 = .error (.py .typeError) ∧
      (Db.fresh.appendWithRetry firstProof 3 [connectionFailure .acknowledge]).2.ledger = [row firstProof] := by
  have hlost := appendWithRetry_acknowledge (f := connectionFailure .acknowledge) firstProof_accepted rfl rfl
    (show (2 : ℤ) ≤ 3 by decide)
  rw [hlost]
  exact ⟨appendLedgerEntry_firstProof, by decide, rfl, rfl⟩

end Postgres
end ProvableAi
