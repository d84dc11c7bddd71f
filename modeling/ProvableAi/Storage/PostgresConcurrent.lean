/-
# Server processes on one PostgreSQL database

Any number of sessions, of one or of several server processes, run
`append_ledger_entry` on one database, one statement at a time and in any
interleaving.

* The lock key is `abs(hash(…)) % 2**31`, and Python's hash of a text is
  randomised per process: the parameter `hash` gives every session its own.
  `pg_try_advisory_xact_lock` refuses only a session with the same key.
* The last row is read by `SELECT … FOR UPDATE SKIP LOCKED`: committed rows, less
  those that other transactions hold.  Besides the sessions modelled here, any
  transaction may hold rows (`alsoLocked`).
* The upsert of the instance row and the unique constraints make a statement wait
  for the transaction it conflicts with.
* A transaction may be ended by the server at any time (`abort`); `_with_retry`
  then starts another one.

`ledger_chained` is the result: whatever the interleaving, the keys and the rows
that are hidden, the committed rows of each tenant and instance are numbered
from one and linked.  The read may return an old row or none; but what is
inserted continues a committed row, committed rows never change, and the unique
constraint refuses it unless that row is still the last
(`Chained.concat_of_continues`).
-/

import ProvableAi.Storage.Postgres

namespace ProvableAi
namespace Postgres

/-! ### Transactions -/

/-- The statement a transaction executes next, with the row it has read. -/
inductive Phase where
  /-- `SELECT pg_try_advisory_xact_lock`. -/
  | locking
  /-- `SELECT … FOR UPDATE SKIP LOCKED` and the checks. -/
  | reading
  /-- `INSERT INTO instances`. -/
  | upserting (last : Option LedgerRow)
  /-- `INSERT INTO ledger`. -/
  | inserting (last : Option LedgerRow)
  /-- `COMMIT`. -/
  | committing (last : Option LedgerRow)
  deriving DecidableEq

/-- A transaction of `append_ledger_entry`. -/
structure Txn where
  proof : ProofDict
  phase : Phase

namespace Txn

/-- The row that was read, once it was. -/
def read (t : Txn) : Option (Option LedgerRow) :=
  match t.phase with
  | .locking | .reading => none
  | .upserting last | .inserting last | .committing last => some last

/-- The advisory lock is held. -/
def locked (t : Txn) : Bool := t.phase ≠ .locking

/-- The ledger row that is locked `FOR UPDATE`. -/
def holdsRow (t : Txn) (r : LedgerRow) : Bool := t.read = some (some r)

/-- The row of `instances` is locked. -/
def holdsInstance (t : Txn) : Bool :=
  match t.phase with
  | .inserting _ | .committing _ => true
  | _ => false

/-- The ledger row is inserted and not yet committed. -/
def pending (t : Txn) : Bool :=
  match t.phase with
  | .committing _ => true
  | _ => false

end Txn

/-- The rows of two proofs violate a unique constraint. -/
def Conflict (p q : ProofDict) : Prop :=
  p.tenant = q.tenant ∧ p.instanceId = q.instanceId ∧
    (p.sequenceId = q.sequenceId ∨ p.currentHash = q.currentHash)

instance (p q : ProofDict) : Decidable (Conflict p q) := inferInstanceAs (Decidable (_ ∧ _))

/-- What is committed, the sessions, and how the calls ended. -/
structure World where
  ledger : List LedgerRow
  instances : List InstanceRow
  sessions : List (Option Txn)
  outcomes : List (ℕ × Except PyErr ℤ)

/-- What the sessions and their surroundings do next. -/
inductive Action where
  /-- An idle session begins a call. -/
  | start (s : ℕ) (p : ProofDict)
  /-- A session executes its next statement; `alsoLocked` are rows that other
  transactions hold. -/
  | step (s : ℕ) (alsoLocked : List LedgerRow)
  /-- The server ends a transaction. -/
  | abort (s : ℕ)

/-- The migrated database, with so many idle sessions. -/
def World.initial (n : ℕ) : World := ⟨[], [], List.replicate n none, []⟩

/-- The key of the advisory lock. -/
def lockKey (hash : ℕ → String → ℤ) (s : ℕ) (p : ProofDict) : ℕ := (hash s (lockText p)).natAbs % 2 ^ 31

namespace World

/-- The transactions of the other sessions. -/
def others (w : World) (s : ℕ) : List (ℕ × Txn) :=
  w.sessions.zipIdx.filterMap fun x => if x.2 = s then none else x.1.map fun t => (x.2, t)

/-- A session goes on. -/
def goOn (w : World) (s : ℕ) (t : Txn) (phase : Phase) : World :=
  { w with sessions := w.sessions.set s (some { t with phase := phase }) }

/-- A call raises and its transaction is rolled back. -/
def fail (w : World) (s : ℕ) (e : PyErr) : World :=
  { w with sessions := w.sessions.set s none, outcomes := w.outcomes ++ [(s, .error e)] }

/-- The rows that `FOR UPDATE SKIP LOCKED` does not skip. -/
def unlocked (w : World) (s : ℕ) (alsoLocked : List LedgerRow) : List LedgerRow :=
  w.ledger.filter fun r => r ∉ alsoLocked ∧ !(w.others s).any fun o => o.2.holdsRow r

/-- The next statement of a transaction. -/
def next (w : World) (hash : ℕ → String → ℤ) (s : ℕ) (alsoLocked : List LedgerRow) (t : Txn) : World :=
  let p := t.proof
  match t.phase with
  | .locking =>
    if (w.others s).any fun o => o.2.locked && lockKey hash o.1 o.2.proof = lockKey hash s p then
      w.fail s (.storageUnavailable ("Could not acquire advisory lock for " ++ p.instanceId))
    else w.goOn s t .reading
  | .reading =>
    let last := lastRow (w.unlocked s alsoLocked) p.tenant p.instanceId
    match bindTexts [p.tenant, p.instanceId] >>= fun _ => checkLink last p with
    | .error e => w.fail s e
    | .ok _ => w.goOn s t (.upserting last)
  | .upserting last =>
    if (w.others s).any fun o => o.2.holdsInstance && o.2.proof.tenant = p.tenant &&
        o.2.proof.instanceId = p.instanceId then w  -- waits for the row lock
    else
      match bindTexts [p.tenant, p.instanceId, p.toState, p.policyVersion] with
      | .error e => w.fail s e
      | .ok _ => w.goOn s t (.inserting last)
  | .inserting last =>
    if (w.others s).any fun o => o.2.pending && Conflict o.2.proof p then w  -- waits for its commit
    else
      match insertLedger w.ledger p with
      | .error e => w.fail s e
      | .ok _ => w.goOn s t (.committing last)
  | .committing _ =>
    { ledger := w.ledger ++ [row p]
      instances := upsertInstance w.instances p
      sessions := w.sessions.set s none
      outcomes := w.outcomes ++ [(s, .ok p.sequenceId)] }

/-- One action; a session that is idle has no statement to execute. -/
def act (w : World) (hash : ℕ → String → ℤ) : Action → World
  | .start s p =>
    match w.sessions[s]? with
    | some none => { w with sessions := w.sessions.set s (some ⟨p, .locking⟩) }
    | _ => w
  | .step s alsoLocked =>
    match w.sessions[s]? with
    | some (some t) => w.next hash s alsoLocked t
    | _ => w
  | .abort s =>
    match w.sessions[s]? with
    | some (some _) => w.fail s .serverError
    | _ => w

/-- The world after a list of actions. -/
def run (w : World) (hash : ℕ → String → ℤ) (actions : List Action) : World :=
  actions.foldl (fun w a => w.act hash a) w

end World

/-! ### The invariant -/

/-- What holds of a transaction: it continues a committed row, and no committed
row has its number once its own row is inserted. -/
structure TxnOk (ledger : List LedgerRow) (t : Txn) : Prop where
  continues : ∀ last, t.read = some last → Continues last t.proof
  committed : ∀ r, t.read = some (some r) → r ∈ rowsOf ledger t.proof.tenant t.proof.instanceId
  fresh : t.pending = true → ∀ r ∈ rowsOf ledger t.proof.tenant t.proof.instanceId,
    r.sequenceId ≠ t.proof.sequenceId

/-- What holds of the world. -/
structure WorldInv (w : World) : Prop where
  chained : Chained w.ledger
  txn : ∀ (s : ℕ) (t : Txn), w.sessions[s]? = some (some t) → TxnOk w.ledger t
  apart : ∀ (s s' : ℕ) (t t' : Txn), s ≠ s' → w.sessions[s]? = some (some t) → w.sessions[s']? = some (some t') →
    t.pending = true → t'.pending = true → ¬ Conflict t.proof t'.proof

theorem WorldInv.initial (n : ℕ) : WorldInv (.initial n) := by
  have hidle : ∀ (s : ℕ) (t : Txn), (World.initial n).sessions[s]? ≠ some (some t) := by
    intro s t h
    have hmem := List.mem_of_getElem? h
    rw [World.initial] at hmem
    exact absurd (List.eq_of_mem_replicate hmem) (by simp)
  exact ⟨.nil, fun s t h => absurd h (hidle s t), fun s s' t t' _ h => absurd h (hidle s t)⟩

/-- The transactions of the other sessions are those found there. -/
theorem World.mem_others {w : World} {s k : ℕ} {t : Txn} (hk : k ≠ s) (ht : w.sessions[k]? = some (some t)) :
    (k, t) ∈ w.others s := by
  refine List.mem_filterMap.2 ⟨(some t, k), ?_, by simp [hk]⟩
  exact List.mem_zipIdx_iff_getElem?.2 ht

section Steps

variable {w : World} {s : ℕ}

/-- A session that changes: the others are as they were. -/
theorem WorldInv.set (h : WorldInv w) (o : Option Txn) (outcomes : List (ℕ × Except PyErr ℤ))
    (hok : ∀ t, o = some t → TxnOk w.ledger t)
    (hapart : ∀ t, o = some t → t.pending = true → ∀ (k : ℕ) (t' : Txn), k ≠ s → w.sessions[k]? = some (some t') →
      t'.pending = true → ¬ Conflict t'.proof t.proof) :
    WorldInv { w with sessions := w.sessions.set s o, outcomes := outcomes } := by
  have hget : ∀ (k : ℕ) (t : Txn), (w.sessions.set s o)[k]? = some (some t) →
      (k = s ∧ o = some t) ∨ (k ≠ s ∧ w.sessions[k]? = some (some t)) := by
    intro k t hk
    by_cases hks : k = s
    · subst hks
      rw [List.getElem?_set_self'] at hk
      obtain ⟨x, -, hx⟩ := Option.map_eq_some_iff.1 hk
      exact .inl ⟨rfl, hx⟩
    · rw [List.getElem?_set_ne (Ne.symm hks)] at hk
      exact .inr ⟨hks, hk⟩
  refine ⟨h.chained, fun k t hk => ?_, fun k k' t t' hne hk hk' hp hp' hc => ?_⟩
  · rcases hget k t hk with ⟨-, ho⟩ | ⟨-, hk⟩
    · exact hok t ho
    · exact h.txn k t hk
  · have hsymm : Conflict t'.proof t.proof := ⟨hc.1.symm, hc.2.1.symm, hc.2.2.imp Eq.symm Eq.symm⟩
    rcases hget k t hk with ⟨rfl, ho⟩ | ⟨hks, hw⟩
    · rcases hget k' t' hk' with ⟨rfl, -⟩ | ⟨hks', hw'⟩
      · exact hne rfl
      · exact hapart t ho hp k' t' hks' hw' hp' hsymm
    · rcases hget k' t' hk' with ⟨rfl, ho'⟩ | ⟨-, hw'⟩
      · exact hapart t' ho' hp' k t hks hw hp hc
      · exact h.apart k k' t t' hne hw hw' hp hp' hc

/-- A session that becomes idle. -/
theorem WorldInv.idle (h : WorldInv w) (outcomes : List (ℕ × Except PyErr ℤ)) :
    WorldInv { w with sessions := w.sessions.set s none, outcomes := outcomes } :=
  h.set none outcomes (by simp) (by simp)

theorem WorldInv.fail (h : WorldInv w) (e : PyErr) : WorldInv (w.fail s e) := h.idle _

/-- A session that goes on without a row of its own. -/
theorem WorldInv.goOn (h : WorldInv w) {t : Txn} {phase : Phase} (hok : TxnOk w.ledger { t with phase := phase })
    (hnot : (Txn.pending ⟨t.proof, phase⟩) = false) : WorldInv (w.goOn s t phase) :=
  h.set (some _) w.outcomes (fun t' ht' => Option.some.inj ht' ▸ hok) fun t' ht' hp => by
    rw [← Option.some.inj ht'] at hp
    exact absurd (hp.symm.trans hnot) (by simp)

/-- What the row that is read under `SKIP LOCKED` is: some committed row of the
instance. -/
theorem World.lastRow_unlocked_mem {alsoLocked : List LedgerRow} {tenantId instanceId : String} {r : LedgerRow}
    (h : lastRow (w.unlocked s alsoLocked) tenantId instanceId = some r) :
    r ∈ rowsOf w.ledger tenantId instanceId := by
  have hmem : r ∈ rowsOf (w.unlocked s alsoLocked) tenantId instanceId := List.argmax_mem h
  obtain ⟨hr, ht, hi⟩ := mem_rowsOf.1 hmem
  exact mem_rowsOf.2 ⟨(List.mem_filter.1 hr).1, ht, hi⟩

theorem insertLedger_eq_ok {ledger ledger' : List LedgerRow} {p : ProofDict}
    (h : insertLedger ledger p = .ok ledger') : checkRow p = .ok () ∧ Unique ledger p ∧ ledger' = ledger ++ [row p] := by
  obtain ⟨⟨⟩, hrow, h⟩ := bind_eq_ok_iff.1 h
  split_ifs at h with hu
  exact ⟨hrow, hu, (Except.ok.inj h).symm⟩

/-- The commit: the row continues the last one. -/
theorem WorldInv.commit (h : WorldInv w) {t : Txn} (ht : w.sessions[s]? = some (some t))
    (hp : t.pending = true) {instances : List InstanceRow} {outcomes : List (ℕ × Except PyErr ℤ)} :
    WorldInv ⟨w.ledger ++ [row t.proof], instances, w.sessions.set s none, outcomes⟩ := by
  have hok := h.txn s t ht
  obtain ⟨last, hlast⟩ : ∃ last, t.read = some last := by
    unfold Txn.pending at hp
    unfold Txn.read
    split at hp
    · rename_i last hphase
      exact ⟨last, by rw [hphase]⟩
    · cases hp
  have hchained : Chained (w.ledger ++ [row t.proof]) :=
    Chained.concat_of_continues h.chained (fun r hr => hok.committed r (hlast.trans (congrArg some hr)))
      (hok.continues last hlast) (hok.fresh hp)
  have hidle := h.idle (s := s) outcomes
  refine ⟨hchained, fun k t' hk => ?_, hidle.apart⟩
  have hok' := hidle.txn k t' hk
  have hks : k ≠ s := by
    rintro rfl
    have hk : (w.sessions.set k none)[k]? = some (some t') := hk
    rw [List.getElem?_set_self', ht] at hk
    simp at hk
  have hk' : w.sessions[k]? = some (some t') := by
    have hk : (w.sessions.set s none)[k]? = some (some t') := hk
    rwa [List.getElem?_set_ne (Ne.symm hks)] at hk
  refine ⟨hok'.continues, fun r hr => ?_, fun hpend r hr hseq => ?_⟩
  · rw [rowsOf_append]
    exact List.mem_append_left _ (hok'.committed r hr)
  · rw [rowsOf_append] at hr
    rcases List.mem_append.1 hr with hr | hr
    · exact hok'.fresh hpend r hr hseq
    · -- the new row: two rows that wait for their commit do not conflict
      obtain ⟨hr, htenant, hinstance⟩ := mem_rowsOf.1 hr
      rw [List.mem_singleton.1 hr] at htenant hinstance hseq
      exact h.apart s k t t' (Ne.symm hks) ht hk' hp hpend ⟨htenant, hinstance, .inl hseq⟩

/-- **Every statement keeps the invariant.** -/
theorem WorldInv.next (h : WorldInv w) (hash : ℕ → String → ℤ) (alsoLocked : List LedgerRow) {t : Txn}
    (ht : w.sessions[s]? = some (some t)) : WorldInv (w.next hash s alsoLocked t) := by
  have hok := h.txn s t ht
  obtain ⟨p, phase⟩ := t
  unfold World.next
  cases phase with
  | locking =>
    dsimp only
    split_ifs
    · exact h.fail _
    · exact h.goOn ⟨nofun, nofun, nofun⟩ rfl
  | reading =>
    dsimp only
    split
    · exact h.fail _
    · rename_i hcheck
      obtain ⟨-, -, hlink⟩ := bind_eq_ok_iff.1 hcheck
      refine h.goOn ⟨fun last hlast => ?_, fun r hr => ?_, nofun⟩ rfl
      · rw [← Option.some.inj hlast]
        exact checkLink_eq_ok.1 hlink
      · exact World.lastRow_unlocked_mem (Option.some.inj hr)
  | upserting last =>
    dsimp only
    split_ifs
    · exact h
    · split
      · exact h.fail _
      · exact h.goOn ⟨hok.continues, hok.committed, nofun⟩ rfl
  | inserting last =>
    dsimp only
    split_ifs with hwait
    · exact h
    · split
      · exact h.fail _
      · rename_i ledger hins
        obtain ⟨-, hunique, -⟩ := insertLedger_eq_ok hins
        refine h.set (some _) w.outcomes (fun t' ht' => ?_) fun t' ht' _ k t'' hks hk hpend hc => ?_
        · rw [← Option.some.inj ht']
          exact ⟨hok.continues, hok.committed, fun _ r hr => (hunique r hr).1⟩
        · -- no other transaction has inserted a row that conflicts
          rw [← Option.some.inj ht'] at hc
          refine hwait (List.any_eq_true.2 ⟨(k, t''), World.mem_others hks hk, ?_⟩)
          simpa [hpend] using hc
  | committing last => exact h.commit ht rfl

end Steps

/-- **What one action preserves.** -/
theorem WorldInv.act {w : World} (h : WorldInv w) (hash : ℕ → String → ℤ) (a : Action) :
    WorldInv (w.act hash a) := by
  unfold World.act
  cases a with
  | start s p =>
    dsimp only
    split
    · refine h.set (some ⟨p, .locking⟩) w.outcomes (fun t ht => ?_) fun t ht hp => ?_
      · rw [← Option.some.inj ht]
        exact ⟨nofun, nofun, nofun⟩
      · rw [← Option.some.inj ht] at hp
        cases hp
    · exact h
  | step s alsoLocked =>
    dsimp only
    split
    · rename_i t ht
      exact h.next hash alsoLocked ht
    · exact h
  | abort s =>
    dsimp only
    split
    · exact h.fail _
    · exact h

theorem WorldInv.run {w : World} (h : WorldInv w) (hash : ℕ → String → ℤ) (actions : List Action) :
    WorldInv (w.run hash actions) := by
  induction actions generalizing w with
  | nil => exact h
  | cons a actions ih => exact ih (h.act hash a)

/-- **Ledger safety on PostgreSQL.**  For any number of sessions, whatever their
hashes of a text are, after any interleaving of their statements in which reads
skip locked rows and transactions are ended at any point, the committed rows of
every tenant and instance are numbered `1`, `2`, …, the first one carries the
genesis hash and every other one the hash of the row before it. -/
theorem ledger_chained (n : ℕ) (hash : ℕ → String → ℤ) (actions : List Action) (tenantId instanceId : String) :
    let rows := rowsOf ((World.initial n).run hash actions).ledger tenantId instanceId
    rows.map LedgerRow.sequenceId = (List.range rows.length).map (fun k : ℕ => 1 + (k : ℤ)) ∧
      (∀ r, rows[0]? = some r → r.previousHash = genesisHash) ∧
      ∀ (k : ℕ) r s, rows[k]? = some r → rows[k + 1]? = some s → s.previousHash = r.currentHash := by
  intro rows
  have hl := ((WorldInv.initial n).run hash actions).chained tenantId instanceId
  exact ⟨hl.map_seq, fun r hr => hl.prev_head hr, fun k r s hr hs => hl.prev_succ hr hs⟩

end Postgres
end ProvableAi
