/-
# A rotation that is cut

`_insert_row` of `audit_keyregistry.py` inserts and commits, so a rotation is two
transactions.  Here the three methods are run statement by statement over a
connection: the rows that are stored, and those of its open transaction, which a
commit that failed has left.  An exception leaves the connection in a state that
the call has entered; a crash leaves what is stored there.

The methods compute what `Audit.KeyRegistry` says (`steps_computes`).  A call is
atomic exactly if it retires no key (`rotation_atomic_iff`): between its commits the
old key is retired and the new one is not there.  `get_active` goes on to return the
retired key then (`selectActive_retired`).  Whatever calls are cut and wherever, the
chains verify and no stored row changes (`registry_crash_safe`).
-/

import ProvableAi.Audit.KeyStartup
import ProvableAi.Lib.Steps

namespace ProvableAi
namespace KeyRegistry

open Steps

/-! ### Statements -/

/-- A connection to the registry. -/
structure Connection where
  /-- What a crash leaves. -/
  rows : List KeyRow
  /-- Inserted, but not committed. -/
  pending : List KeyRow

namespace Connection

/-- The rows that its queries read. -/
def seen (c : Connection) : List KeyRow := c.rows ++ c.pending

/-- `INSERT`. -/
def insert (c : Connection) (row : KeyRow) : Connection := ⟨c.rows, c.pending ++ [row]⟩

/-- `commit`. -/
def commit (c : Connection) : Connection := ⟨c.seen, []⟩

theorem seen_nil (rows : List KeyRow) : Connection.seen ⟨rows, []⟩ = rows := List.append_nil rows

theorem seen_insert (c : Connection) (row : KeyRow) : (c.insert row).seen = c.seen ++ [row] :=
  (List.append_assoc _ _ _).symm

@[simp] theorem seen_commit (c : Connection) : c.commit.seen = c.seen := List.append_nil _

end Connection

/-- The row of the `INSERT` statement. -/
def newRow (table : List KeyRow) (a : RowArgs) : Except PyErr KeyRow := do
  let content ← a.content
  let chainHash ← Audit.computeChainHash (prevChainHash table content.tenantId) (rowHash content)
  .ok
    { content with
      rowHash := rowHash content, chainHash := chainHash, id := Autoincrement.nextId KeyRow.id table }

/-- A query. -/
def query {α : Type} (select : List KeyRow → α) : Steps Connection PyErr α := read fun c => .ok (select c.seen)

theorem query_bind {α β : Type} {select : List KeyRow → α} {f : α → Steps Connection PyErr β} {c : Connection} :
    (query select >>= f).exec c = (f (select c.seen)).exec c :=
  read_ok (s := c) rfl

/-- `_insert_row`. -/
def runInsert (a : RowArgs) : Steps Connection PyErr KeyRecord := do
  let row ← read fun c => newRow c.seen a
  write fun c => c.insert row
  write Connection.commit
  pure row.toKeyRecord

/-- `register_key`. -/
def runRegisterKey (now : String) (a : KeyArgs) (notes : Option PyStr) : Steps Connection PyErr KeyRecord := do
  let keyId ← lift (encode a.keyId)
  let tenantId ← lift (encode a.tenantId)
  match ← query fun table => selectActiveKey table keyId tenantId with
  | some existing => pure existing.toKeyRecord
  | none =>
    match ← query fun table => selectActive table tenantId with
    | some active =>
      lift (.error (.valueError ("Tenant '" ++ tenantId ++ "' already has active key '" ++ active.keyId ++
        "'. Call rotate_key() to switch to a new key.")))
    | none => runInsert (a.activeRow now notes)

/-- The inserts of a rotation. -/
def runReplace (now : String) (a : KeyArgs) (old : KeyRow) (retireNotes notes : Option PyStr) :
    Steps Connection PyErr (KeyRecord × KeyRecord) := do
  let retired ← runInsert (old.retiredRow now a.tenantId a.keyId retireNotes)
  let record ← runInsert (a.activeRow now notes)
  pure (record, retired)

/-- `register_or_update`. -/
def runRegisterOrUpdate (now : String) (a : KeyArgs) : Steps Connection PyErr KeyRecord := do
  let keyId ← lift (encode a.keyId)
  let tenantId ← lift (encode a.tenantId)
  match ← query fun table => selectActiveKey table keyId tenantId with
  | some existing => pure existing.toKeyRecord
  | none =>
    match ← query fun table => selectActive table tenantId with
    | some active =>
      if active.keyId ≠ keyId then do
        let records ← runReplace now a active autoRetired none
        pure records.1
      else runInsert (a.activeRow now none)
    | none => runInsert (a.activeRow now none)

/-- `rotate_key`. -/
def runRotateKey (now : String) (a : KeyArgs) (notes : Option PyStr) :
    Steps Connection PyErr (KeyRecord × Option KeyRecord) := do
  let tenantId ← lift (encode a.tenantId)
  match ← query fun table => selectActive table tenantId with
  | some old => do
    let records ← runReplace now a old notes notes
    pure (records.1, some records.2)
  | none => do
    let record ← runInsert (a.activeRow now notes)
    pure (record, none)

/-- A call, statement by statement. -/
def Call.steps : Call → Steps Connection PyErr (KeyRecord × Option KeyRecord)
  | .registerKey now a notes => do
    let record ← runRegisterKey now a notes
    pure (record, none)
  | .registerOrUpdate now a => do
    let record ← runRegisterOrUpdate now a
    pure (record, none)
  | .rotateKey now a notes => runRotateKey now a notes

/-! ### The property -/

/-- The retirement in `rows` has its successor there; neither was there `before`. -/
def HasSuccessor (before rows : List KeyRow) (retired : KeyRow) : Prop :=
  ∃ b ∈ rows, b ∉ before ∧ b.tenantId = retired.tenantId ∧ b.status = .active ∧ retired.supersededBy = some b.keyId

/-- **Wherever the call is cut**, the stored rows are those before it or those after
its completion, and no key that it retires is without a successor. -/
structure Atomic (c : Connection) (call : Call) : Prop where
  whole : ∀ c' ∈ left call.steps c,
    c'.rows = c.rows ∨ (∃ answer, (call.steps.exec c).result = .ok answer) ∧ c'.rows = (last call.steps c).rows
  succeeded : ∀ c' ∈ left call.steps c, ∀ r ∈ c'.rows, r ∉ c.seen → r.status = .retired →
    HasSuccessor c.seen c'.rows r

/-- The tenant's last chain hash is hexadecimal, as all that the registry writes. -/
def Linkable (table : List KeyRow) (t : String) : Prop := (fromHex (prevChainHash table t)).isSome = true

/-- The call retires a key: the tenant has one, for `register_or_update` another one, and
the row that retires it can be written. -/
def RetiresKey (table : List KeyRow) : Call → Prop
  | .registerKey _ _ _ => False
  | .registerOrUpdate _ a => ∃ k t, encode a.keyId = .ok k ∧ encode a.tenantId = .ok t ∧
      selectActiveKey table k t = none ∧ (selectActive table t).isSome = true ∧ Linkable table t
  | .rotateKey _ a notes => ∃ k t n, encode a.keyId = .ok k ∧ encode a.tenantId = .ok t ∧
      Audit.encodable notes = .ok n ∧ (selectActive table t).isSome = true ∧ Linkable table t

/-! ### One insert -/

section Insert

variable {c : Connection} {table : List KeyRow} {a : RowArgs} {row : KeyRow} {e : PyErr}

theorem insertRow_eq : insertRow table a = match newRow table a with
    | .error e => (.error e, table)
    | .ok row => (.ok row.toKeyRecord, table ++ [row]) := by
  rw [insertRow, newRow]
  cases a.content with
  | error e => rfl
  | ok content =>
    simp only [ok_bind]
    cases Audit.computeChainHash (prevChainHash table content.tenantId) (rowHash content) <;> rfl

theorem runInsert_error (h : newRow c.seen a = .error e) : (runInsert a).exec c = ⟨[], .error e⟩ := read_error h

theorem runInsert_ok (h : newRow c.seen a = .ok row) :
    (runInsert a).exec c = ⟨[c.insert row, (c.insert row).commit], .ok row.toKeyRecord⟩ := by
  rw [runInsert, read_ok (s := c) h, write_bind, write_bind]
  rfl

/-- Which rows can be written. -/
theorem newRow_eq_ok : newRow table a = .ok row → ∃ content, a.content = .ok content ∧
    Linkable table content.tenantId ∧ row.toKeyContent = content ∧ row.id = Autoincrement.nextId KeyRow.id table := by
  intro h
  rw [newRow, bind_eq_ok_iff] at h
  obtain ⟨content, hcontent, h⟩ := h
  rw [bind_eq_ok_iff] at h
  obtain ⟨d, hd, h⟩ := h
  refine ⟨content, hcontent, ?_, ?_, ?_⟩
  · rw [Audit.computeChainHash] at hd
    rw [Linkable]
    cases hprev : fromHex (prevChainHash table content.tenantId) with
    | none => rw [hprev] at hd; cases hd
    | some b => rfl
  · cases h; rfl
  · cases h; rfl

theorem newRow_isOk {content : KeyContent} (ha : a.content = .ok content) (hl : Linkable table content.tenantId) :
    ∃ row, newRow table a = .ok row := by
  obtain ⟨b, hb⟩ := Option.isSome_iff_exists.1 hl
  rw [newRow, ha, ok_bind, Audit.computeChainHash, hb, rowHash, fromHex_toHex]
  exact ⟨_, rfl⟩

/-- A row that is written is new. -/
theorem newRow_not_mem (h : newRow table a = .ok row) : row ∉ table := by
  obtain ⟨_, _, _, _, hid⟩ := newRow_eq_ok h
  intro hmem
  have hlt : row.id < Autoincrement.nextId KeyRow.id table := Autoincrement.lt_nextId hmem
  omega

theorem newRow_retired {old : KeyRow} {now : String} {tenant key : PyStr} {notes : Option PyStr} :
    (∃ row, newRow table (old.retiredRow now tenant key notes) = .ok row) ↔ ∃ k t n, encode key = .ok k ∧
      encode tenant = .ok t ∧ Audit.encodable notes = .ok n ∧ Linkable table t := by
  constructor
  · rintro ⟨row, hrow⟩
    obtain ⟨content, hcontent, hl, -, -⟩ := newRow_eq_ok hrow
    obtain ⟨t, k, n, ht, hk, hn, rfl⟩ := retiredRow_content.1 hcontent
    exact ⟨k, t, n, hk, ht, hn, hl⟩
  · rintro ⟨k, t, n, hk, ht, hn, hl⟩
    exact newRow_isOk (retiredRow_content.2 ⟨t, k, n, ht, hk, hn, rfl⟩) hl

theorem newRow_retired_status {old : KeyRow} {now : String} {tenant key : PyStr} {notes : Option PyStr}
    (h : newRow table (old.retiredRow now tenant key notes) = .ok row) : row.status = .retired := by
  obtain ⟨content, hcontent, -, rfl, -⟩ := newRow_eq_ok h
  obtain ⟨_, _, _, -, -, -, hc⟩ := retiredRow_content.1 hcontent
  rw [hc]

theorem newRow_active_status {a : KeyArgs} {now : String} {notes : Option PyStr}
    (h : newRow table (a.activeRow now notes) = .ok row) : row.status = .active := by
  obtain ⟨content, hcontent, -, rfl, -⟩ := newRow_eq_ok h
  obtain ⟨_, _, _, _, _, _, -, -, -, -, -, -, hc⟩ := activeRow_content.1 hcontent
  rw [hc]

end Insert

/-! ### What a call does -/

/-- The states that a computation enters, and what `Audit.KeyRegistry` computes from the
rows it sees; `retires` where it retires a key. -/
inductive Course {α : Type} (c : Connection) (retires : Prop) :
    Run Connection PyErr α → Except PyErr α × List KeyRow → Prop
  | still (h : ¬ retires) (result : Except PyErr α) : Course c retires ⟨[], result⟩ (result, c.seen)
  | added (h : ¬ retires) (row : KeyRow) (hactive : row.status = .active) (answer : α) :
      Course c retires ⟨[c.insert row, (c.insert row).commit], .ok answer⟩ (.ok answer, c.seen ++ [row])
  | half (h : retires) (row : KeyRow) (hnew : row ∉ c.seen) (hretired : row.status = .retired) (e : PyErr) :
      Course c retires ⟨[c.insert row, (c.insert row).commit], .error e⟩ (.error e, c.seen ++ [row])
  | replaced (h : retires) (row next : KeyRow) (hnew : row ∉ c.seen) (hretired : row.status = .retired) (answer : α) :
      Course c retires ⟨[c.insert row, (c.insert row).commit, (c.insert row).commit.insert next,
        ((c.insert row).commit.insert next).commit], .ok answer⟩ (.ok answer, c.seen ++ [row] ++ [next])

section Courses

variable {α β : Type} {c : Connection} {P : Prop} {now : String} {a : KeyArgs} {notes : Option PyStr}

theorem Course.map {m : Steps Connection PyErr α} {out : Except PyErr α × List KeyRow}
    (h : Course c P (m.exec c) out) (f : α → β) :
    Course c P ((m >>= fun x => pure (f x)).exec c) (out.1.map f, out.2) := by
  rw [exec_bind]
  generalize m.exec c = r at h
  cases h with
  | still hP result =>
    cases result with
    | error e => exact .still hP _
    | ok x => exact .still hP _
  | added hP row hactive x => exact .added hP row hactive (f x)
  | half hP row hnew hretired e => exact .half hP row hnew hretired e
  | replaced hP row next hnew hretired x => exact .replaced hP row next hnew hretired (f x)

/-- A key that becomes active. -/
theorem course_active (hP : ¬ P) :
    Course c P ((runInsert (a.activeRow now notes)).exec c) (insertRow c.seen (a.activeRow now notes)) := by
  rw [insertRow_eq]
  cases hrow : newRow c.seen (a.activeRow now notes) with
  | error e =>
    rw [runInsert_error hrow]
    exact .still hP _
  | ok row =>
    rw [runInsert_ok hrow]
    exact .added hP row (newRow_active_status hrow) _

/-- A rotation. -/
theorem course_replace {old : KeyRow} {retireNotes : Option PyStr}
    (hP : P ↔ ∃ row, newRow c.seen (old.retiredRow now a.tenantId a.keyId retireNotes) = .ok row) :
    Course c P ((runReplace now a old retireNotes notes).exec c) (replaceKey c.seen now a old retireNotes notes) := by
  rw [replaceKey, insertRow_eq, runReplace]
  cases hrow : newRow c.seen (old.retiredRow now a.tenantId a.keyId retireNotes) with
  | error e =>
    rw [bind_error (runInsert_error hrow)]
    refine .still (fun h => ?_) _
    obtain ⟨row, hok⟩ := hP.1 h
    rw [hrow] at hok
    cases hok
  | ok row =>
    have h : P := hP.2 ⟨row, hrow⟩
    have hnew := newRow_not_mem hrow
    have hretired := newRow_retired_status hrow
    rw [bind_ok (runInsert_ok hrow)]
    simp only [List.getLastD_cons, List.getLastD_nil]
    rw [insertRow_eq, ← Connection.seen_insert, ← Connection.seen_commit]
    cases hnext : newRow (c.insert row).commit.seen (a.activeRow now notes) with
    | error e =>
      rw [bind_error (runInsert_error hnext), Connection.seen_commit, Connection.seen_insert]
      exact .half h row hnew hretired e
    | ok next =>
      rw [bind_ok (runInsert_ok hnext), Connection.seen_commit, Connection.seen_insert]
      exact .replaced h row next hnew hretired _

theorem course_registerKey : Course c False ((runRegisterKey now a notes).exec c) (registerKey c.seen now a notes) := by
  rw [runRegisterKey, registerKey]
  cases hk : encode a.keyId with
  | error e =>
    rw [lift_error]
    exact .still not_false _
  | ok k =>
    rw [lift_ok]
    cases ht : encode a.tenantId with
    | error e =>
      rw [lift_error]
      exact .still not_false _
    | ok t =>
      rw [lift_ok, query_bind]
      simp only
      cases selectActiveKey c.seen k t with
      | some existing => exact .still not_false _
      | none =>
        simp only
        rw [query_bind]
        cases selectActive c.seen t with
        | some active => exact .still not_false _
        | none => exact course_active not_false

theorem course_registerOrUpdate : Course c (RetiresKey c.seen (.registerOrUpdate now a))
    ((runRegisterOrUpdate now a).exec c) (registerOrUpdate c.seen now a) := by
  rw [runRegisterOrUpdate, registerOrUpdate, RetiresKey]
  cases hk : encode a.keyId with
  | error e =>
    rw [lift_error]
    exact .still (by simp) _
  | ok k =>
    rw [lift_ok]
    cases ht : encode a.tenantId with
    | error e =>
      rw [lift_error]
      exact .still (by simp) _
    | ok t =>
      rw [lift_ok, query_bind]
      simp only [Except.ok.injEq, exists_and_left, exists_eq_left']
      cases hkey : selectActiveKey c.seen k t with
      | some existing => exact .still (by simp) _
      | none =>
        simp only
        rw [query_bind]
        cases hold : selectActive c.seen t with
        | none => exact course_active (by simp)
        | some active =>
          have hne : active.keyId ≠ k := by
            rintro rfl
            exact selectActiveKey_ne_none hold hkey
          simp only [if_pos hne]
          refine (course_replace ?_).map Prod.fst
          rw [newRow_retired]
          simp [hk, ht, autoRetired, Audit.encodable, PyStr.toString?_ofString]

theorem course_rotateKey : Course c (RetiresKey c.seen (.rotateKey now a notes))
    ((runRotateKey now a notes).exec c) (rotateKey c.seen now a notes) := by
  rw [runRotateKey, rotateKey, RetiresKey]
  cases ht : encode a.tenantId with
  | error e =>
    rw [lift_error]
    exact .still (by simp) _
  | ok t =>
    rw [lift_ok, query_bind]
    simp only
    cases hold : selectActive c.seen t with
    | none =>
      refine (course_active ?_).map fun r => (r, none)
      simp [hold]
    | some old =>
      refine (course_replace ?_).map fun r => (r.1, some r.2)
      rw [newRow_retired]
      simp [ht, hold]

/-- **How a call goes**, statement by statement. -/
theorem course (c : Connection) (call : Call) :
    Course c (RetiresKey c.seen call) (call.steps.exec c) (step c.seen call) := by
  cases call with
  | registerKey now a notes => exact course_registerKey.map fun r => (r, none)
  | registerOrUpdate now a => exact course_registerOrUpdate.map fun r => (r, none)
  | rotateKey now a notes => exact course_rotateKey

end Courses

/-- **Run statement by statement, a call computes what `Audit.KeyRegistry` says.** -/
theorem steps_computes (c : Connection) (call : Call) :
    (call.steps.exec c).result = (step c.seen call).1 ∧ (last call.steps c).seen = (step c.seen call).2 := by
  have hcourse := course c call
  rw [last]
  generalize call.steps.exec c = r at hcourse
  generalize step c.seen call = out at hcourse
  cases hcourse with
  | still h result => exact ⟨rfl, rfl⟩
  | added h row hactive answer => exact ⟨rfl, by simp [Connection.seen_insert]⟩
  | half h row hnew hretired e => exact ⟨rfl, by simp [Connection.seen_insert]⟩
  | replaced h row next hnew hretired answer => exact ⟨rfl, by simp [Connection.seen_insert]⟩

/-! ### Cut calls -/

section Cut

variable {c : Connection} {call : Call}

/-- A retirement is committed alone. -/
theorem not_atomic_of_retires (h : RetiresKey c.seen call) : ¬ Atomic c call := by
  intro hatomic
  have halone : ∃ row, row ∉ c.seen ∧ row.status = .retired ∧ (c.insert row).commit ∈ left call.steps c := by
    have hcourse := course c call
    rw [left]
    generalize call.steps.exec c = r at hcourse
    generalize step c.seen call = out at hcourse
    cases hcourse with
    | still hnot => exact absurd h hnot
    | added hnot => exact absurd h hnot
    | half _ row hnew hretired e => exact ⟨row, hnew, hretired, by simp⟩
    | replaced _ row next hnew hretired answer => exact ⟨row, hnew, hretired, by simp⟩
  obtain ⟨row, hnew, hretired, hleft⟩ := halone
  have hrows : (c.insert row).commit.rows = c.seen ++ [row] := Connection.seen_insert c row
  obtain ⟨b, hb, hbnew, -, hactive, -⟩ := hatomic.succeeded _ hleft row (by simp [hrows]) hnew hretired
  rw [hrows, List.mem_append, List.mem_singleton] at hb
  obtain hb | rfl := hb
  · exact hbnew hb
  · rw [hretired] at hactive
    cases hactive

/-- One row is inserted and committed, or none. -/
theorem atomic_of_not_retires (h : ¬ RetiresKey c.seen call) : Atomic c call := by
  have hcourse := course c call
  generalize hrun : call.steps.exec c = r at hcourse
  generalize step c.seen call = out at hcourse
  cases hcourse with
  | half hret => exact absurd hret h
  | replaced hret => exact absurd hret h
  | still _ result =>
    have hleft : ∀ c' ∈ left call.steps c, c' = c := by simp [left, hrun]
    refine ⟨fun c' hc' => ?_, fun c' hc' r hr hnew => ?_⟩
    · rw [hleft c' hc']
      exact .inl rfl
    · rw [hleft c' hc'] at hr
      exact absurd (List.mem_append_left _ hr) hnew
  | added _ row hactive answer =>
    have hleft : ∀ c' ∈ left call.steps c, c'.rows = c.rows ∨ c' = (c.insert row).commit := by
      rw [left, hrun]
      intro c' hc'
      simp only [List.mem_cons, List.not_mem_nil, or_false] at hc'
      obtain rfl | rfl | rfl := hc'
      · exact .inl rfl
      · exact .inl rfl
      · exact .inr rfl
    have hrows : (c.insert row).commit.rows = c.seen ++ [row] := Connection.seen_insert c row
    refine ⟨fun c' hc' => (hleft c' hc').imp_right ?_, fun c' hc' r hr hnew hretired => ?_⟩
    · rintro rfl
      refine ⟨⟨answer, by rw [hrun]⟩, ?_⟩
      rw [last, hrun]
      rfl
    · obtain hsame | rfl := hleft c' hc'
      · rw [hsame] at hr
        exact absurd (List.mem_append_left _ hr) hnew
      · rw [hrows, List.mem_append, List.mem_singleton] at hr
        obtain hr | rfl := hr
        · exact absurd hr hnew
        · rw [hretired] at hactive
          cases hactive

end Cut

/-- **A call is atomic exactly if it retires no key.** -/
theorem rotation_atomic_iff (c : Connection) (call : Call) : Atomic c call ↔ ¬ RetiresKey c.seen call :=
  ⟨fun hatomic h => not_atomic_of_retires h hatomic, atomic_of_not_retires⟩

/-- A rotation of the key of `bank`. -/
def rotation : Call := .rotateKey "2026-02-01T00:00:00Z" (bankKey "key-002" (.ofString "bb")) none

theorem rotation_cut {table : List KeyRow} (hactive : (selectActive table "bank").isSome = true)
    (hlink : Linkable table "bank") : ¬ Atomic ⟨table, []⟩ rotation := by
  apply not_atomic_of_retires
  rw [Connection.seen_nil]
  exact ⟨"key-002", "bank", none, encode_ofString "key-002", encode_ofString "bank", rfl, hactive, hlink⟩

theorem linkable_firstKey : Linkable (step [] firstKey).2 "bank" := by
  rw [Linkable, firstKey_inv.chained.prevChainHash_eq, fromHex_toHex, Option.isSome_some]

/-- **A crash between the two commits of a rotation** leaves `key-001` retired in favour
of a key that is not there. -/
theorem rotation_not_atomic : ¬ Atomic ⟨(step [] firstKey).2, []⟩ rotation :=
  rotation_cut selectActive_firstKey linkable_firstKey

/-- **The retired key is the one that `get_active` returns**, until its successor is there. -/
theorem selectActive_retired {table : List KeyRow} (h : Chained table) {content : KeyContent}
    (hretired : content.status = .retired) (t : String) :
    selectActive (table ++ [nextRow table content]) t = selectActive table t := by
  rw [selectActive, tenantRows_insert h, selectActive]
  split_ifs with ht
  · have hstatus : (nextRow table content).status = .retired := hretired
    rw [List.filter_append, List.filter_cons_of_neg (by simp [hstatus]), List.filter_nil, List.append_nil]
  · rfl

/-! ### Runs of cut calls -/

/-- A call and where it ends: after how many of the states it would enter, and whether the
process ends there too. -/
structure Ending where
  call : Call
  entered : ℕ
  crash : Bool

namespace Connection

/-- The connection after the call, or the one that is opened after the crash. -/
def after (c : Connection) (e : Ending) : Connection :=
  let c' := (left e.call.steps c).getD e.entered (last e.call.steps c)
  if e.crash then ⟨c'.rows, []⟩ else c'

/-- The connection after the calls. -/
def run (c : Connection) (es : List Ending) : Connection := es.foldl after c

end Connection

/-- Both what is stored and what the connection sees are chained. -/
structure Connection.Sound (c : Connection) : Prop where
  rows : Chained c.rows
  seen : Chained c.seen

theorem tenantRows_eq {table : List KeyRow} (h : Chained table) (t : String) :
    tenantRows table t = table.filter fun r => r.tenantId = t := Autoincrement.selectAsc_eq h.ids _

/-- Rows that were written first are chained by themselves. -/
theorem Chained.of_isPrefix {l m : List KeyRow} (h : Chained m) (hp : l <+: m) : Chained l := by
  have hids : Autoincrement.Ascending KeyRow.id l := h.ids.sublist hp.sublist
  refine ⟨hids, fun t => ?_⟩
  obtain ⟨k, rfl⟩ := hp
  have hintact := h.intact t
  rw [tenantRows_eq h, List.filter_append] at hintact
  rw [tenantRows, Autoincrement.selectAsc_eq hids]
  exact (HashChain.sealed_append.1 hintact).1

/-- **What a call can leave**: the rows that were stored and perhaps more, and what the
connection then sees is the beginning of what the whole call would leave. -/
theorem left_cases {c c' : Connection} {call : Call} (h : c' ∈ left call.steps c) :
    c.rows <+: c'.rows ∧ c'.seen <+: (step c.seen call).2 := by
  have hrows : ∀ rows : List KeyRow, c.rows <+: c.seen ++ rows := fun rows =>
    (List.prefix_append c.rows c.pending).trans (List.prefix_append _ _)
  have hinsert : ∀ row, (c.insert row).seen = c.seen ++ [row] := Connection.seen_insert c
  have hstored : ∀ row, c.rows <+: (c.insert row).commit.rows := by
    intro row
    show c.rows <+: (c.insert row).seen
    rw [hinsert]
    exact hrows [row]
  have hsame : ∀ row, (c.insert row).seen <+: c.seen ++ [row] := fun row => (hinsert row).symm ▸ List.prefix_rfl
  have hcourse := course c call
  rw [left] at h
  generalize call.steps.exec c = r at hcourse h
  generalize step c.seen call = out at hcourse ⊢
  cases hcourse with
  | still _ result =>
    obtain rfl := List.mem_singleton.1 h
    exact ⟨List.prefix_rfl, List.prefix_rfl⟩
  | added _ row hactive answer =>
    simp only [List.mem_cons, List.not_mem_nil, or_false] at h
    obtain rfl | rfl | rfl := h
    · exact ⟨List.prefix_rfl, List.prefix_append _ _⟩
    · exact ⟨List.prefix_rfl, hsame row⟩
    · exact ⟨hstored row, (Connection.seen_commit (c.insert row)).symm ▸ hsame row⟩
  | half _ row hnew hretired e =>
    simp only [List.mem_cons, List.not_mem_nil, or_false] at h
    obtain rfl | rfl | rfl := h
    · exact ⟨List.prefix_rfl, List.prefix_append _ _⟩
    · exact ⟨List.prefix_rfl, hsame row⟩
    · exact ⟨hstored row, (Connection.seen_commit (c.insert row)).symm ▸ hsame row⟩
  | replaced _ row next hnew hretired answer =>
    have hcommit : (c.insert row).commit.seen = c.seen ++ [row] := by rw [Connection.seen_commit, hinsert]
    simp only [List.mem_cons, List.not_mem_nil, or_false] at h
    obtain rfl | rfl | rfl | rfl | rfl := h
    · refine ⟨List.prefix_rfl, ?_⟩
      rw [List.append_assoc]
      exact List.prefix_append _ _
    · rw [hinsert]
      exact ⟨List.prefix_rfl, List.prefix_append _ _⟩
    · rw [hcommit]
      exact ⟨hstored row, List.prefix_append _ _⟩
    · rw [Connection.seen_insert, hcommit]
      exact ⟨hstored row, List.prefix_rfl⟩
    · rw [Connection.seen_commit, Connection.seen_insert, hcommit]
      refine ⟨?_, List.prefix_rfl⟩
      show c.rows <+: ((c.insert row).commit.insert next).seen
      rw [Connection.seen_insert, hcommit, List.append_assoc]
      exact hrows _

theorem Connection.Sound.initial : Connection.Sound ⟨[], []⟩ := ⟨Chained.nil, Chained.nil⟩

/-- A call ends in one of the states that it can leave. -/
theorem Connection.after_cases (c : Connection) (e : Ending) :
    ∃ c' ∈ left e.call.steps c, c.after e = c' ∨ c.after e = ⟨c'.rows, []⟩ := by
  refine ⟨(left e.call.steps c).getD e.entered (last e.call.steps c), ?_, ?_⟩
  · rw [List.getD_eq_getElem?_getD]
    by_cases hin : e.entered < (left e.call.steps c).length
    · rw [List.getElem?_eq_getElem hin]
      exact List.getElem_mem hin
    · rw [List.getElem?_eq_none (not_lt.1 hin)]
      show (e.call.steps.exec c).entered.getLastD c ∈ c :: (e.call.steps.exec c).entered
      exact List.getLastD_mem_cons
  · unfold Connection.after
    by_cases hcrash : e.crash = true
    · exact .inr (if_pos hcrash)
    · exact .inl (if_neg hcrash)

/-- A call keeps what was stored, however it ends. -/
theorem Connection.rows_after (c : Connection) (e : Ending) : c.rows <+: (c.after e).rows := by
  obtain ⟨c', hleft, heq | heq⟩ := c.after_cases e
  · rw [heq]
    exact (left_cases hleft).1
  · rw [heq]
    exact (left_cases hleft).1

/-- However a call ends, it leaves chained rows. -/
theorem Connection.Sound.after {c : Connection} (h : c.Sound) (e : Ending) : (c.after e).Sound := by
  obtain ⟨c', hleft, heq⟩ := c.after_cases e
  have hseen : Chained c'.seen := (h.seen.step e.call).of_isPrefix (left_cases hleft).2
  have hrows : Chained c'.rows := hseen.of_isPrefix (List.prefix_append _ _)
  obtain heq | heq := heq
  · rw [heq]
    exact ⟨hrows, hseen⟩
  · rw [heq]
    exact ⟨hrows, by rw [Connection.seen_nil]; exact hrows⟩

theorem Connection.Sound.run {c : Connection} (h : c.Sound) (es : List Ending) : (c.run es).Sound := by
  induction es generalizing c with
  | nil => exact h
  | cons e es ih => exact ih (h.after e)

/-- A tenant with a key keeps one while rows are added. -/
theorem selectActive_of_isPrefix {l m : List KeyRow} (hm : Chained m) (hp : l <+: m) {t : String}
    (h : (selectActive l t).isSome = true) : (selectActive m t).isSome = true := by
  have hl := hm.of_isPrefix hp
  obtain ⟨k, rfl⟩ := hp
  rw [selectActive, tenantRows_eq hl, List.getLast?_isSome] at h
  rw [selectActive, tenantRows_eq hm, List.getLast?_isSome, List.filter_append, List.filter_append]
  exact List.append_ne_nil_of_left_ne_nil h _

/-- **The registry through crashes.**  Calls follow each other, each of them cut anywhere: an
exception leaves the connection with its open transaction, a crash what is stored.  At any
time every tenant's chain verifies, in the database and as the connection reads it; the
next call, however it ends, changes no stored row; and a tenant that has an active key goes
on to have one. -/
theorem registry_crash_safe (es : List Ending) (e : Ending) :
    let c := (Connection.mk [] []).run es
    (∀ t, ChainValid c.rows t ∧ ChainValid c.seen t) ∧ c.rows <+: (c.after e).rows ∧
      ∀ t, (selectActive c.rows t).isSome = true → (selectActive (c.after e).rows t).isSome = true := by
  intro c
  have h : c.Sound := Connection.Sound.initial.run es
  refine ⟨fun t => ⟨h.rows.valid t, h.seen.valid t⟩, c.rows_after e, fun t => ?_⟩
  exact selectActive_of_isPrefix (h.after e).rows (c.rows_after e)

end KeyRegistry
end ProvableAi
