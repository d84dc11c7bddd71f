/-
# Writers on several connections

Any number of `SQLiteStorage` connections to one database, each running
`append_ledger_entry` and `record_transition` calls, one statement at a time
and in any interleaving.

The transactions are those of Python's `sqlite3` on a database in WAL mode.  A
`SELECT` outside a transaction reads what is committed.  An `INSERT` opens a
transaction if none is open and takes the write lock; it fails with
`OperationalError` while another connection holds the lock, or when the
transaction reads an older snapshot.  A method that raises anything but
`IntegrityError` leaves its transaction open, so the next call on that
connection may read the snapshot of a transaction that is not its own.  The
insert of a ledger row and the commit after it are one step; before it, every
`SELECT` and the insert of the instance row are steps of their own.

`ledger_safe` is the result: whatever the interleaving, the committed rows of
each tenant and instance are numbered from one and linked, a committed row
never changes, and the rows are exactly those of the calls that returned.  The
argument is in `Validated`: the checks of a call held on some prefix of the
committed ledger, the ledger only grows, and the unique index refuses the row
if the instance grew since (`rowsOf_eq_of_unique`).
-/

import ProvableAi.Storage.Tables
import Mathlib.Data.List.Infix

namespace ProvableAi
namespace Concurrent

open HashChain

/-! ### Calls and their statements -/

/-- The arguments of `record_transition`. -/
structure TransitionArgs where
  instanceId : String
  fromState : String
  toState : String
  actor : String
  inputHash : String
  outputHash : String
  modelVersion : String
  agentVersion : String
  policyVersion : String
  previousHash : String
  currentHash : String
  signature : String
  protocolHash : String
  metadata : Option (List (String × Json))
  schemaVersion : String

/-- A call of a writing method. -/
inductive Call where
  | append (p : ProofDict)
  | transition (a : TransitionArgs)

/-- The statements the two methods execute. -/
inductive Stmt where
  /-- The `SELECT` of `_ensure_instance`. -/
  | selectInstance
  /-- Its `INSERT OR IGNORE`. -/
  | insertInstance
  /-- `get_max_sequence_id`. -/
  | selectMax
  /-- The first `SELECT` of `_validate_chain_integrity`. -/
  | selectConflict
  /-- The second one. -/
  | selectLast
  /-- `INSERT INTO ledger` and `commit`. -/
  | insertLedger
  deriving DecidableEq

namespace Call

/-- The statements of a call, in order. -/
def program : Call → List Stmt
  | append _ => [.selectConflict, .selectLast, .selectInstance, .insertInstance, .insertLedger]
  | transition _ =>
    [.selectInstance, .insertInstance, .selectMax, .selectConflict, .selectLast, .insertLedger]

/-- The tenant of the row; `record_transition` leaves it to the default. -/
def tenant : Call → String
  | append p => p.tenant
  | transition _ => defaultTenant

def instanceId : Call → String
  | append p => p.instanceId
  | transition a => a.instanceId

def previousHash : Call → String
  | append p => p.previousHash
  | transition a => a.previousHash

/-- `protocol_hash` of the instance row. -/
def protocolHash : Call → String
  | append p => p.policyVersion
  | transition a => a.protocolHash

def toState : Call → String
  | append p => p.toState
  | transition a => a.toState

/-- The number a call brings with it; `record_transition` reads its own. -/
def sequenceId : Call → ℤ
  | append p => p.sequenceId
  | transition _ => 0

/-- What is checked before the first statement. -/
def precheck : Call → Except PyErr Unit
  | append p => p.checkSignature
  | transition _ => .ok ()

/-- The ledger row of a call that goes by number `n`. -/
def row (now : String) (n : ℤ) : Call → LedgerRow
  | append p => { p.row with sequenceId := n }
  | transition a =>
    { tenantId := defaultTenant, instanceId := a.instanceId, sequenceId := n
      previousHash := a.previousHash, currentHash := a.currentHash, signature := a.signature
      keyId := "legacy", protocolHash := a.protocolHash, fromState := a.fromState, toState := a.toState
      actor := a.actor, inputHash := a.inputHash, outputHash := a.outputHash
      modelVersion := a.modelVersion, agentVersion := a.agentVersion, policyVersion := a.policyVersion
      metadataJson := dumps (.obj (a.metadata.getD [])), proofJson := dumps (.obj [])
      schemaVersion := a.schemaVersion, version := 1, timestamp := now }

variable (call : Call) (now : String) (n : ℤ)

@[simp] theorem row_tenantId : (call.row now n).tenantId = call.tenant := by cases call <;> rfl
@[simp] theorem row_instanceId : (call.row now n).instanceId = call.instanceId := by cases call <;> rfl
@[simp] theorem row_sequenceId : (call.row now n).sequenceId = n := by cases call <;> rfl
@[simp] theorem row_previousHash : (call.row now n).previousHash = call.previousHash := by cases call <;> rfl

end Call

/-! ### Connections -/

/-- The tables the writers touch. -/
structure Tables where
  ledger : List LedgerRow
  instances : List InstanceRow
  deriving DecidableEq

/-- The transaction of a connection: none, one that has not read yet, or one
that reads a snapshot together with its own writes. -/
inductive Txn where
  | closed
  | begun
  | reading (view : Tables)

/-- A call under way: the number it goes by and the statements to come. -/
structure Running where
  call : Call
  sequenceId : ℤ
  todo : List Stmt

/-- A connection. -/
structure Conn where
  txn : Txn
  running : Option Running

/-- How a call ended. -/
inductive Outcome where
  | returned (row : LedgerRow)
  | raised (e : PyErr)

/-- The database and its connections; `writer` holds the write lock, `log` is
the calls that ended, in order. -/
structure World (C : Type*) where
  committed : Tables
  writer : Option C
  conn : C → Conn
  log : List (C × Outcome)

/-- What the code and its surroundings do next. -/
inductive Event (C : Type*) where
  /-- A connection that runs no call starts one. -/
  | start (c : C) (call : Call)
  /-- A connection executes its next statement, at time `now`; `busy` says that
  SQLite gives up on it with `OperationalError`. -/
  | step (c : C) (busy : Bool) (now : String)
  /-- A connection is closed, its transaction rolled back. -/
  | close (c : C)

/-- The database as `SQLiteStorage` created it, all connections idle. -/
def World.initial (C : Type*) : World C :=
  { committed := ⟨[], []⟩, writer := none, conn := fun _ => ⟨.closed, none⟩, log := [] }

/-- What a `SELECT` on the connection reads. -/
def Conn.sees (k : Conn) (committed : Tables) : Tables :=
  match k.txn with
  | .reading view => view
  | _ => committed

/-- The transaction after a `SELECT`: an open one keeps its snapshot. -/
def Conn.afterRead (k : Conn) (committed : Tables) : Txn :=
  match k.txn with
  | .closed => .closed
  | .begun => .reading committed
  | .reading view => .reading view

/-- The transaction after an `INSERT` that failed for want of the lock. -/
def Conn.afterBegin (k : Conn) : Txn :=
  match k.txn with
  | .closed => .begun
  | t => t

section Steps

variable {C : Type*} [DecidableEq C]

/-- The write lock can be had: no other connection holds it and the transaction
reads no older snapshot. -/
def World.mayWrite (w : World C) (c : C) : Bool :=
  (w.writer = none ∨ w.writer = some c) &&
    match (w.conn c).txn with
    | .reading view => w.writer = some c ∨ view = w.committed
    | _ => true

/-- What a statement leads to. -/
inductive Effect (C : Type*) where
  /-- The call goes on. -/
  | next (k : Conn) (writer : Option C)
  /-- The call raises. -/
  | raised (e : PyErr) (txn : Txn) (writer : Option C)
  /-- The row is inserted and committed, and the call returns. -/
  | returned (row : LedgerRow) (tables : Tables)

/-- The lock after the connection's transaction ends. -/
def World.released (w : World C) (c : C) : Option C := if w.writer = some c then none else w.writer

/-- A statement that needs the write lock. -/
def Stmt.writes : Stmt → Bool
  | insertInstance | insertLedger => true
  | _ => false

/-- The effect of a statement of call `r` on connection `c` where SQLite does
not give up on it; `rest` is the statements after it. -/
def World.effect (w : World C) (c : C) (now : String) (r : Running) (rest : List Stmt) : Stmt → Effect C :=
  let seen := (w.conn c).sees w.committed
  let read := (w.conn c).afterRead w.committed
  fun
  | .selectInstance =>
    let found := hasInstance seen.instances r.call.tenant r.call.instanceId
    .next ⟨read, some { r with todo := if found then rest.drop 1 else rest }⟩ w.writer
  | .insertInstance =>
    let instances := ProvableAi.insertInstance seen.instances r.call.tenant r.call.instanceId
      r.call.protocolHash r.call.toState (some now)
    .next ⟨.reading { seen with instances := instances }, some { r with todo := rest }⟩ (some c)
  | .selectMax =>
    let sequenceId := maxSequenceId seen.ledger r.call.tenant r.call.instanceId + 1
    .next ⟨read, some { r with sequenceId := sequenceId, todo := rest }⟩ w.writer
  | .selectConflict =>
    match checkConflict seen.ledger r.call.instanceId r.call.tenant with
    | .error e => .raised e read w.writer
    | .ok _ => .next ⟨read, some { r with todo := rest }⟩ w.writer
  | .selectLast =>
    match checkLink seen.ledger r.call.instanceId r.sequenceId r.call.previousHash r.call.tenant with
    | .error e => .raised e read w.writer
    | .ok _ => .next ⟨read, some { r with todo := rest }⟩ w.writer
  | .insertLedger =>
    match ProvableAi.insertLedger seen.ledger (r.call.row now r.sequenceId) with
    | .error e => .raised e .closed (w.released c)  -- `IntegrityError`, rolled back
    | .ok ledger => .returned (r.call.row now r.sequenceId) { seen with ledger := ledger }

/-- The effect of a statement that SQLite gives up on, if it does. -/
def World.giveUp (w : World C) (c : C) (busy : Bool) (s : Stmt) : Option (Effect C) :=
  if busy || (s.writes && !w.mayWrite c) then
    some (.raised .operationalError (if s.writes then (w.conn c).afterBegin else (w.conn c).txn) w.writer)
  else none

/-- The world after an effect on connection `c`. -/
def World.apply (w : World C) (c : C) : Effect C → World C
  | .next k writer => { w with writer := writer, conn := Function.update w.conn c k }
  | .raised e txn writer =>
    { w with
      writer := writer
      conn := Function.update w.conn c ⟨txn, none⟩
      log := w.log ++ [(c, .raised e)] }
  | .returned row tables =>
    { committed := tables
      writer := none
      conn := Function.update w.conn c ⟨.closed, none⟩
      log := w.log ++ [(c, .returned row)] }

/-- One event. -/
def World.act (w : World C) : Event C → World C
  | .start c call =>
    match (w.conn c).running with
    | some _ => w
    | none =>
      match call.precheck with
      | .error e => w.apply c (.raised e (w.conn c).txn w.writer)
      | .ok _ => w.apply c (.next ⟨(w.conn c).txn, some ⟨call, call.sequenceId, call.program⟩⟩ w.writer)
  | .step c busy now =>
    match (w.conn c).running with
    | none => w
    | some r =>
      match r.todo with
      | [] => w
      | s :: rest => w.apply c ((w.giveUp c busy s).getD (w.effect c now r rest s))
  | .close c => w.apply c (.next ⟨.closed, none⟩ (w.released c))

/-- A run: the events in order. -/
def World.run (w : World C) (events : List (Event C)) : World C := events.foldl World.act w

/-- The rows of the calls that returned. -/
def returnedRows (log : List (C × Outcome)) : List LedgerRow :=
  log.filterMap fun e =>
    match e.2 with
    | .returned row => some row
    | .raised _ => none

/-! ### The invariant -/

/-- The checks of the call held on some prefix of the ledger. -/
def Validated (ledger : List LedgerRow) (r : Running) : Prop :=
  ∃ l, l <+: ledger ∧ r.sequenceId = (rowsOf l r.call.tenant r.call.instanceId).length + 1 ∧
    r.call.previousHash = tip rowReading genesisHash (rowsOf l r.call.tenant r.call.instanceId)

/-- What holds of a connection: its snapshot is a former ledger, its call goes
through its program, and is validated once the checks are behind it. -/
structure ConnOk (ledger : List LedgerRow) (k : Conn) : Prop where
  view : ∀ v, k.txn = .reading v → v.ledger <+: ledger
  program : ∀ r, k.running = some r → r.todo <:+ r.call.program
  validated : ∀ r, k.running = some r → Stmt.selectLast ∉ r.todo → Validated ledger r

/-- What holds of the world. -/
structure Inv (w : World C) : Prop where
  chained : Chained w.committed.ledger
  conn : ∀ c, ConnOk w.committed.ledger (w.conn c)
  writer : ∀ c, w.writer = some c → ∃ v, (w.conn c).txn = .reading v ∧ v.ledger = w.committed.ledger
  log : returnedRows w.log = w.committed.ledger

omit [DecidableEq C] in
theorem Inv.initial : Inv (World.initial C) where
  chained := Chained.nil
  conn _ := ⟨by simp [World.initial], by simp [World.initial], by simp [World.initial]⟩
  writer := by simp [World.initial]
  log := rfl

theorem Validated.mono {l m : List LedgerRow} (h : l <+: m) {r : Running} :
    Validated l r → Validated m r
  | ⟨k, hk, hs⟩ => ⟨k, hk.trans h, hs⟩

theorem ConnOk.mono {l m : List LedgerRow} (h : l <+: m) {k : Conn} (hk : ConnOk l k) : ConnOk m k where
  view v hv := (hk.view v hv).trans h
  program := hk.program
  validated r hr hl := (hk.validated r hr hl).mono h

theorem ConnOk.idle {l : List LedgerRow} {t : Txn} (h : ∀ v, t = .reading v → v.ledger <+: l) :
    ConnOk l ⟨t, none⟩ := ⟨h, by simp, by simp⟩

theorem ConnOk.sees_prefix {t : Tables} {k : Conn} (h : ConnOk t.ledger k) :
    (k.sees t).ledger <+: t.ledger := by
  rw [Conn.sees]
  split
  · rename_i v hv; exact h.view v hv
  · exact List.prefix_rfl

theorem ConnOk.afterRead {t : Tables} {k : Conn} (h : ConnOk t.ledger k) :
    ∀ v, k.afterRead t = .reading v → v.ledger <+: t.ledger := by
  intro v hv
  rw [Conn.afterRead] at hv
  split at hv
  · cases hv
  · obtain rfl := Txn.reading.inj hv; exact List.prefix_rfl
  · rename_i v' hv'
    obtain rfl := Txn.reading.inj hv
    exact h.view _ hv'

/-- A call that goes on with some of its statements, its number unchanged. -/
theorem ConnOk.advance {l : List LedgerRow} {k : Conn} (h : ConnOk l k) {r : Running} {s : Stmt}
    {todo rest : List Stmt} (hr : k.running = some r) (hs : r.todo = s :: todo) (hl : s ≠ .selectLast)
    (hrest : rest <:+ todo) (hkeep : Stmt.selectLast ∈ todo → Stmt.selectLast ∈ rest) {t : Txn}
    (ht : ∀ v, t = .reading v → v.ledger <+: l) : ConnOk l ⟨t, some { r with todo := rest }⟩ where
  view := ht
  program r' hr' := by
    obtain rfl := Option.some.inj hr'
    have := h.program r hr
    rw [hs] at this
    exact hrest.trans ((List.suffix_cons s todo).trans this)
  validated r' hr' hn := by
    obtain rfl := Option.some.inj hr'
    have hn : Stmt.selectLast ∉ r.todo := by
      rw [hs, List.mem_cons]
      rintro (hsl | hm)
      · exact hl hsl.symm
      · exact hn (hkeep hm)
    exact h.validated r hr hn

section Effects

variable {w : World C} {c : C}

/-- A connection that may write reads the committed ledger. -/
theorem Inv.sees_eq (h : Inv w) (hm : w.mayWrite c = true) :
    ((w.conn c).sees w.committed).ledger = w.committed.ledger := by
  rw [World.mayWrite, Bool.and_eq_true] at hm
  rw [Conn.sees]
  cases ht : (w.conn c).txn with
  | reading v =>
    rw [ht] at hm
    rcases of_decide_eq_true hm.2 with hw | rfl
    · obtain ⟨v', hv', he⟩ := h.writer c hw
      rw [ht] at hv'
      obtain rfl := Txn.reading.inj hv'
      exact he
    · rfl
  | _ => rfl

/-- The lock is with a connection whose transaction reads the committed ledger,
connection `c` now in transaction `txn`. -/
def WriterOk (w : World C) (c : C) (txn : Txn) (writer : Option C) : Prop :=
  ∀ d, writer = some d →
    (d = c ∧ ∃ v, txn = .reading v ∧ v.ledger = w.committed.ledger) ∨ (d ≠ c ∧ w.writer = some d)

/-- What an effect must satisfy to keep the invariant. -/
def EffectOk (w : World C) (c : C) : Effect C → Prop
  | .next k writer => ConnOk w.committed.ledger k ∧ WriterOk w c k.txn writer
  | .raised _ txn writer => (∀ v, txn = .reading v → v.ledger <+: w.committed.ledger) ∧ WriterOk w c txn writer
  | .returned row tables => tables.ledger = w.committed.ledger ++ [row] ∧ Chained tables.ledger

omit [DecidableEq C] in
/-- A transaction that goes on reading what it read keeps the lock. -/
theorem Inv.writerOk (h : Inv w) {t : Txn} (ht : ∀ v, (w.conn c).txn = .reading v → t = .reading v) :
    WriterOk w c t w.writer := by
  intro d hd
  by_cases hdc : d = c
  · subst hdc
    obtain ⟨v, hv, he⟩ := h.writer d hd
    exact .inl ⟨rfl, v, ht v hv, he⟩
  · exact .inr ⟨hdc, hd⟩

theorem WriterOk.released {t : Txn} : WriterOk w c t (w.released c) := by
  intro d hd
  rw [World.released] at hd
  split at hd
  · cases hd
  · rename_i hne
    exact .inr ⟨fun hdc => hne (by rw [hd, hdc]), hd⟩

omit [DecidableEq C] in
theorem afterRead_reading {v : Tables} (hv : (w.conn c).txn = .reading v) :
    (w.conn c).afterRead w.committed = .reading v := by rw [Conn.afterRead, hv]

theorem WriterOk.update (h : Inv w) {k : Conn} {writer : Option C} (hw : WriterOk w c k.txn writer) :
    ∀ d, writer = some d →
      ∃ v, (Function.update w.conn c k d).txn = .reading v ∧ v.ledger = w.committed.ledger := by
  intro d hd
  rcases hw d hd with ⟨rfl, hv⟩ | ⟨hdc, hd⟩
  · rwa [Function.update_self]
  · rw [Function.update_of_ne hdc]
    exact h.writer d hd

theorem ConnOk.update (h : Inv w) {k : Conn} (hk : ConnOk w.committed.ledger k) :
    ∀ d, ConnOk w.committed.ledger (Function.update w.conn c k d) := by
  intro d
  by_cases hdc : d = c
  · rw [hdc, Function.update_self]; exact hk
  · rw [Function.update_of_ne hdc]; exact h.conn d

/-- Good effects keep the invariant. -/
theorem Inv.apply (h : Inv w) {e : Effect C} (he : EffectOk w c e) : Inv (w.apply c e) := by
  cases e with
  | next k writer =>
    exact ⟨h.chained, he.1.update h, he.2.update h, h.log⟩
  | raised e txn writer =>
    refine ⟨h.chained, (ConnOk.idle he.1).update h, WriterOk.update (k := ⟨txn, none⟩) h he.2, ?_⟩
    rw [World.apply, ← h.log]
    simp [returnedRows]
  | returned row tables =>
    obtain ⟨hl, hch⟩ := he
    have hp : w.committed.ledger <+: tables.ledger := hl ▸ List.prefix_append _ _
    refine ⟨hch, fun d => ?_, by simp [World.apply], ?_⟩
    · exact ((ConnOk.idle (by simp)).update h d).mono hp
    · simp only [World.apply]
      rw [hl, ← h.log]
      simp [returnedRows]

omit [DecidableEq C] in
/-- How the programs go on: the search for the instance is followed by its
insert, the search for the largest number by the checks, the ledger row by
nothing. -/
theorem program_suffix {call : Call} {todo : List Stmt} (h : todo <:+ call.program) :
    (todo.head? = some .selectInstance → todo.tail.head? = some .insertInstance) ∧
    (todo.head? = some .selectMax → Stmt.selectLast ∈ todo.tail) ∧
    (todo.head? = some .insertLedger → todo.tail = []) := by
  have happend : ∀ todo ∈ [Stmt.selectConflict, .selectLast, .selectInstance, .insertInstance,
      .insertLedger].tails, (todo.head? = some .selectInstance → todo.tail.head? = some .insertInstance) ∧
      (todo.head? = some .selectMax → Stmt.selectLast ∈ todo.tail) ∧
      (todo.head? = some .insertLedger → todo.tail = []) := by decide
  have htransition : ∀ todo ∈ [Stmt.selectInstance, .insertInstance, .selectMax, .selectConflict,
      .selectLast, .insertLedger].tails,
      (todo.head? = some .selectInstance → todo.tail.head? = some .insertInstance) ∧
      (todo.head? = some .selectMax → Stmt.selectLast ∈ todo.tail) ∧
      (todo.head? = some .insertLedger → todo.tail = []) := by decide
  cases call with
  | append p => exact happend todo ((List.mem_tails _ _).2 h)
  | transition a => exact htransition todo ((List.mem_tails _ _).2 h)

/-- Every statement keeps the invariant. -/
theorem Inv.effect (h : Inv w) {r : Running} {s : Stmt} {rest : List Stmt} (now : String)
    (hr : (w.conn c).running = some r) (hs : r.todo = s :: rest)
    (hm : s.writes = true → w.mayWrite c = true) : EffectOk w c (w.effect c now r rest s) := by
  have hk := h.conn c
  have hread : WriterOk w c ((w.conn c).afterRead w.committed) w.writer :=
    h.writerOk fun v hv => afterRead_reading hv
  have hsuf := program_suffix (hk.program r hr)
  rw [hs] at hsuf
  simp only [List.head?_cons, List.tail_cons, Option.some.injEq] at hsuf
  cases s with
  | selectInstance =>
    refine ⟨hk.advance hr hs (by simp) ?_ ?_ hk.afterRead, hread⟩
    · split
      · exact List.drop_suffix 1 rest
      · exact List.suffix_rfl
    · intro hmem
      split
      · -- the statement skipped is the insert of the instance
        cases rest with
        | nil => simp at hmem
        | cons s' rest' =>
          have hs' : s' = .insertInstance := by simpa using hsuf.1 rfl
          simpa [hs'] using hmem
      · exact hmem
  | insertInstance =>
    have hsees := h.sees_eq (hm rfl)
    refine ⟨hk.advance hr hs (by simp) List.suffix_rfl id fun v hv => ?_, fun d hd => .inl ⟨?_, _, rfl, hsees⟩⟩
    · obtain rfl := Txn.reading.inj hv
      exact hsees ▸ List.prefix_rfl
    · exact (Option.some.inj hd).symm
  | selectMax =>
    refine ⟨⟨hk.afterRead, fun r' hr' => ?_, fun r' hr' hn => ?_⟩, hread⟩
    · obtain rfl := Option.some.inj hr'
      have := hk.program r hr
      rw [hs] at this
      exact (List.suffix_cons _ rest).trans this
    · obtain rfl := Option.some.inj hr'
      exact absurd (hsuf.2.1 rfl) hn
  | selectConflict =>
    rw [World.effect]
    simp only
    split
    · exact ⟨hk.afterRead, hread⟩
    · exact ⟨hk.advance hr hs (by simp) List.suffix_rfl id hk.afterRead, hread⟩
  | selectLast =>
    rw [World.effect]
    simp only
    split
    · exact ⟨hk.afterRead, hread⟩
    · rename_i hcheck
      refine ⟨⟨hk.afterRead, fun r' hr' => ?_, fun r' hr' _ => ?_⟩, hread⟩
      · obtain rfl := Option.some.inj hr'
        have := hk.program r hr
        rw [hs] at this
        exact (List.suffix_cons _ rest).trans this
      · -- the check held on what the connection reads, a prefix of what is committed
        obtain rfl := Option.some.inj hr'
        have hp := hk.sees_prefix
        exact ⟨_, hp, (checkLink_ok_iff (h.chained.of_prefix hp)).1 hcheck⟩
  | insertLedger =>
    rw [World.effect]
    simp only
    split
    · exact ⟨by simp, WriterOk.released⟩
    · rename_i ledger hins
      obtain ⟨hadm, rfl⟩ := insertLedger_ok_iff.1 hins
      rw [h.sees_eq (hm rfl)] at hadm
      have hrest := hsuf.2.2 rfl
      obtain ⟨l, hl, hn, hprev⟩ := hk.validated r hr (by simp [hs, hrest])
      -- the unique index: no row of the instance was committed since the check
      have hu := hadm.2.2.2.1
      simp only [Call.row_tenantId, Call.row_instanceId, Call.row_sequenceId] at hu
      have hrows := rowsOf_eq_of_unique h.chained hl hn hu
      simp only [EffectOk]
      rw [h.sees_eq (hm rfl)]
      refine ⟨rfl, h.chained.concat ?_ ?_⟩
      · simpa [← hrows] using hn
      · simpa [← hrows] using hprev

theorem Inv.giveUp (h : Inv w) {busy : Bool} {s : Stmt} {e : Effect C} (he : w.giveUp c busy s = some e) :
    EffectOk w c e := by
  rw [World.giveUp] at he
  split at he
  · obtain rfl := Option.some.inj he
    refine ⟨fun v hv => (h.conn c).view v ?_, h.writerOk fun v hv => ?_⟩
    · split at hv
      · rw [Conn.afterBegin] at hv
        split at hv
        · cases hv
        · exact hv
      · exact hv
    · split
      · rw [Conn.afterBegin, hv]
      · exact hv
  · cases he

end Effects

/-- **What an event can do**: nothing, or one good effect on one connection. -/
theorem Inv.act_cases {w : World C} (h : Inv w) (e : Event C) :
    w.act e = w ∨ ∃ c ef, EffectOk w c ef ∧ w.act e = w.apply c ef := by
  cases e with
  | start c call =>
    rw [World.act]
    split
    · exact .inl rfl
    · split
      · refine .inr ⟨c, _, ?_, rfl⟩
        exact ⟨(h.conn c).view, h.writerOk fun v hv => hv⟩
      · refine .inr ⟨c, _, ?_, rfl⟩
        refine ⟨⟨(h.conn c).view, fun r hr => ?_, fun r hr hn => ?_⟩, h.writerOk fun v hv => hv⟩
        · obtain rfl := Option.some.inj hr; exact List.suffix_rfl
        · obtain rfl := Option.some.inj hr
          cases call <;> simp [Call.program] at hn
  | step c busy now =>
    rw [World.act]
    split
    · exact .inl rfl
    · rename_i r hr
      split
      · exact .inl rfl
      · rename_i s rest hs
        refine .inr ⟨c, _, ?_, rfl⟩
        cases hg : w.giveUp c busy s with
        | some ef => exact h.giveUp hg
        | none =>
          refine h.effect now hr hs fun hw => ?_
          rw [World.giveUp] at hg
          split at hg
          · cases hg
          · rename_i hcond
            simp only [hw, Bool.true_and, Bool.or_eq_true, Bool.not_eq_true', not_or,
              Bool.not_eq_false] at hcond
            exact hcond.2
  | close c =>
    refine .inr ⟨c, .next ⟨.closed, none⟩ (w.released c), ?_, rfl⟩
    exact ⟨ConnOk.idle (by simp), WriterOk.released⟩

/-- **Every reachable world satisfies the invariant.** -/
theorem Inv.run {w : World C} (h : Inv w) (events : List (Event C)) : Inv (w.run events) := by
  induction events generalizing w with
  | nil => exact h
  | cons e events ih =>
    refine ih ?_
    rcases h.act_cases e with he | ⟨c, ef, hef, he⟩
    · rw [he]; exact h
    · rw [he]; exact h.apply hef

/-! ### Safety -/

/-- The rows of a chained ledger have distinct keys. -/
theorem Chained.pairwise {l : List LedgerRow} (h : Chained l) :
    l.Pairwise fun r s =>
      ¬ (r.tenantId = s.tenantId ∧ r.instanceId = s.instanceId ∧ r.sequenceId = s.sequenceId) := by
  induction l using List.reverseRecOn with
  | nil => exact .nil
  | append_singleton l r ih =>
    refine List.pairwise_append.2 ⟨ih (h.of_prefix (List.prefix_append _ _)), List.pairwise_singleton _ _, ?_⟩
    rintro s hs r' hr ⟨ht, hi, hn⟩
    rw [List.mem_singleton.1 hr] at ht hi hn
    -- the last row of the instance carries a larger number than all before it
    have hl := h r.tenantId r.instanceId
    rw [rowsOf_append, rowsOf_self] at hl
    obtain ⟨hrows, -, hseq⟩ := Linked.concat.1 hl
    obtain ⟨k, hk, hks⟩ := List.getElem_of_mem (mem_rowsOf.2 ⟨hs, ht, hi⟩)
    have hsk : s.sequenceId = 1 + k := hrows.seq_get (List.getElem?_eq_some_iff.2 ⟨hk, hks⟩)
    have hseq : r.sequenceId = 1 + (rowsOf l r.tenantId r.instanceId).length := hseq
    omega

/-- **Ledger safety under concurrent writers.**  After any events, and for every
tenant and instance, the committed rows are numbered `1`, `2`, …, the first one
carries the genesis hash and every other one the hash of the row before it.
The next event leaves the committed rows as they are: either no call ends, or
one raises and adds nothing, or one returns and adds its row.  The rows are
those of the calls that returned, and no two of these share tenant, instance
and number, so of the writers that race for a number at most one returns. -/
theorem ledger_safe (events : List (Event C)) :
    let w := (World.initial C).run events
    (∀ t i, let rows := rowsOf w.committed.ledger t i
      rows.map LedgerRow.sequenceId = (List.range rows.length).map (fun k : ℕ => 1 + (k : ℤ)) ∧
      (∀ r, rows[0]? = some r → r.previousHash = genesisHash) ∧
      ∀ (k : ℕ) r s, rows[k]? = some r → rows[k + 1]? = some s → s.previousHash = r.currentHash) ∧
    (∀ e : Event C,
      ((w.act e).log = w.log ∧ (w.act e).committed.ledger = w.committed.ledger) ∨
      (∃ c err, (w.act e).log = w.log ++ [(c, .raised err)] ∧
        (w.act e).committed.ledger = w.committed.ledger) ∨
      (∃ c row, (w.act e).log = w.log ++ [(c, .returned row)] ∧
        (w.act e).committed.ledger = w.committed.ledger ++ [row])) ∧
    w.committed.ledger = returnedRows w.log ∧
    (returnedRows w.log).Pairwise fun r s =>
      ¬ (r.tenantId = s.tenantId ∧ r.instanceId = s.instanceId ∧ r.sequenceId = s.sequenceId) := by
  intro w
  have h : Inv w := Inv.initial.run events
  refine ⟨fun t i => ?_, fun e => ?_, h.log.symm, h.log ▸ Chained.pairwise h.chained⟩
  · have hl := h.chained t i
    exact ⟨hl.map_seq, fun r hr => hl.prev_head hr, fun k r s hr hs => hl.prev_succ hr hs⟩
  · rcases h.act_cases e with he | ⟨c, ef, hef, he⟩
    · rw [he]
      exact .inl ⟨rfl, rfl⟩
    · rw [he]
      cases ef with
      | next k writer => exact .inl ⟨rfl, rfl⟩
      | raised err txn writer => exact .inr (.inl ⟨c, err, rfl, rfl⟩)
      | returned row tables => exact .inr (.inr ⟨c, row, rfl, hef.1⟩)

end Steps
end Concurrent
end ProvableAi
