/-
# The owner of an instance

`_check_cross_tenant` says that an instance belongs to exactly one tenant,
forever.  `append_ledger_entry` checks it with a `SELECT` before the insert, and
no index backs the check: the unique indexes of `ledger` start with the tenant.
Two connections that both look before either of them inserts both succeed, and
the instance has two owners (`two_owners`).

What the check gives is in `owners_agree`.  The rows of an instance have one
tenant, and `instances` names it, in every run in which no row is committed
while another connection stands between its check and its insert with a call
for another tenant of the same instance, and in which SQLite does not give up
on the insert of a connection that already holds the lock.  The second
condition is about the instance row: it is inserted in the same transaction, an
`OperationalError` leaves that transaction open, and the next call on the
connection commits an instance whose ledger row was never written.
-/

import ProvableAi.Lib.Lockstep
import ProvableAi.Storage.Concurrent
import Mathlib.Data.Fintype.Basic

namespace ProvableAi
namespace Concurrent

open Lockstep

variable {C : Type*}

/-- The event starts no call but `append_ledger_entry`. -/
def Event.Appends : Event C → Prop
  | .start _ (.transition _) => False
  | _ => True

/-- Every instance has one owner, and `instances` names it. -/
structure OneOwner (t : Tables) : Prop where
  rows : ∀ r ∈ t.ledger, ∀ s ∈ t.ledger, r.instanceId = s.instanceId → r.tenantId = s.tenantId
  listed : ∀ r ∈ t.ledger, ∃ i ∈ t.instances, i.instanceId = r.instanceId
  named : ∀ r ∈ t.ledger, ∀ i ∈ t.instances, i.instanceId = r.instanceId → i.tenantId = r.tenantId

/-- The call is past its cross-tenant check. -/
def Running.checked (r : Running) : Prop := Stmt.selectConflict ∉ r.todo

/-- What a step has to find for the check to mean something.  Where a connection
is about to insert its ledger row, either SQLite gives up on the insert, and the
connection does not hold the lock; or it does not, and no other connection is,
outside a transaction, past its check for another tenant of the instance. -/
def Undisturbed (w : World C) : Event C → Prop
  | .step c busy _ => ∀ r ∈ (w.conn c).running, r.todo = [.insertLedger] →
      if busy then w.writer ≠ some c
      else ∀ d, d ≠ c → ∀ q ∈ (w.conn d).running, (w.conn d).txn = .closed → q.checked →
        q.call.instanceId = r.call.instanceId → q.call.tenant = r.call.tenant
  | _ => True

/-! ### The invariant -/

/-- No other tenant has rows of the call's instance. -/
def Clear (ledger : List LedgerRow) (call : Call) : Prop :=
  ∀ row ∈ ledger, row.instanceId = call.instanceId → row.tenantId = call.tenant

theorem clear_of_checkConflict {ledger : List LedgerRow} {call : Call}
    (h : checkConflict ledger call.instanceId call.tenant = .ok ()) : Clear ledger call := by
  rw [checkConflict] at h
  split at h
  · cases h
  · rename_i hnone
    intro row hrow hi
    have := List.find?_eq_none.1 hnone row hrow
    simpa [hi] using this

/-- The instance row of the call is there. -/
def Listed (instances : List InstanceRow) (call : Call) : Prop :=
  ∃ i ∈ instances, i.tenantId = call.tenant ∧ i.instanceId = call.instanceId

/-- What holds of a connection that runs `append_ledger_entry`: once it is past its
check, it reads no row of another tenant; once it has only the ledger row to
insert, it reads its instance row. -/
structure ConnOwned (committed : Tables) (k : Conn) : Prop where
  appends : ∀ r, k.running = some r → ∃ p, r.call = .append p
  open_ : ∀ r, k.running = some r → r.checked → k.txn ≠ .begun
  clear : ∀ r, k.running = some r → r.checked → Clear (k.sees committed).ledger r.call
  listed : ∀ r, k.running = some r → r.todo = [.insertLedger] → Listed (k.sees committed).instances r.call

/-- The connection that holds the lock has inserted its instance row, if any, and
has its ledger row to insert. -/
def Holds (committed : Tables) (k : Conn) : Prop :=
  ∃ r v, k.running = some r ∧ r.todo = [.insertLedger] ∧ k.txn = .reading v ∧
    committed.instances ⊆ v.instances ∧
    ∀ i ∈ v.instances, i ∈ committed.instances ∨ (i.tenantId = r.call.tenant ∧ i.instanceId = r.call.instanceId)

/-- What holds of the world, next to `Inv`. -/
structure Owned (w : World C) : Prop where
  rows : ∀ r ∈ w.committed.ledger, ∀ s ∈ w.committed.ledger,
    r.instanceId = s.instanceId → r.tenantId = s.tenantId
  listed : ∀ r ∈ w.committed.ledger, ∃ i ∈ w.committed.instances,
    i.tenantId = r.tenantId ∧ i.instanceId = r.instanceId
  settled : ∀ i ∈ w.committed.instances, ∃ r ∈ w.committed.ledger,
    r.tenantId = i.tenantId ∧ r.instanceId = i.instanceId
  conn : ∀ c, ConnOwned w.committed (w.conn c)
  writer : ∀ c, w.writer = some c → Holds w.committed (w.conn c)

theorem Owned.oneOwner {w : World C} (h : Owned w) : OneOwner w.committed where
  rows := h.rows
  listed r hr := by
    obtain ⟨i, hi, -, he⟩ := h.listed r hr
    exact ⟨i, hi, he⟩
  named r hr i hi he := by
    obtain ⟨s, hs, hst, hsi⟩ := h.settled i hi
    rw [← hst]
    exact h.rows s hs r hr (hsi.trans he)

theorem Owned.initial : Owned (World.initial C) where
  rows := by simp [World.initial]
  listed := by simp [World.initial]
  settled := by simp [World.initial]
  conn _ := ⟨by simp [World.initial], by simp [World.initial], by simp [World.initial], by simp [World.initial]⟩
  writer := by simp [World.initial]

theorem ConnOwned.idle (t : Tables) (txn : Txn) : ConnOwned t ⟨txn, none⟩ :=
  ⟨by simp, by simp, by simp, by simp⟩

/-! ### One step -/

section Steps

variable [DecidableEq C] {w : World C} {c : C}

/-- The lock is where it was, with another connection. -/
def Elsewhere (w : World C) (c : C) (writer : Option C) : Prop :=
  ∀ d, writer = some d → d ≠ c ∧ w.writer = some d

/-- A row that comes with its instance row and bothers no other connection. -/
structure RowOk (w : World C) (c : C) (row : LedgerRow) (tables : Tables) : Prop where
  ledger : tables.ledger = w.committed.ledger ++ [row]
  clear : ∀ s ∈ w.committed.ledger, s.instanceId = row.instanceId → s.tenantId = row.tenantId
  keeps : w.committed.instances ⊆ tables.instances
  listed : ∃ i ∈ tables.instances, i.tenantId = row.tenantId ∧ i.instanceId = row.instanceId
  adds : ∀ i ∈ tables.instances,
    i ∈ w.committed.instances ∨ (i.tenantId = row.tenantId ∧ i.instanceId = row.instanceId)
  others : ∀ d, d ≠ c → ∀ q, (w.conn d).running = some q → (w.conn d).txn = .closed → q.checked →
    q.call.instanceId = row.instanceId → q.call.tenant = row.tenantId

/-- What an effect must satisfy to keep the owners. -/
def OwnerOk (w : World C) (c : C) : Effect C → Prop
  | .next k writer => ConnOwned w.committed k ∧
      ((writer = some c ∧ Holds w.committed k) ∨ Elsewhere w c writer)
  | .raised _ _ writer => Elsewhere w c writer
  | .returned row tables => RowOk w c row tables

theorem ConnOwned.update (h : Owned w) {k : Conn} (hk : ConnOwned w.committed k) :
    ∀ d, ConnOwned w.committed (Function.update w.conn c k d) := by
  intro d
  by_cases hd : d = c
  · rw [hd, Function.update_self]; exact hk
  · rw [Function.update_of_ne hd]; exact h.conn d

theorem Elsewhere.update (h : Owned w) {k : Conn} {writer : Option C} (hw : Elsewhere w c writer) :
    ∀ d, writer = some d → Holds w.committed (Function.update w.conn c k d) := by
  intro d hd
  obtain ⟨hne, hd⟩ := hw d hd
  rw [Function.update_of_ne hne]
  exact h.writer d hd

/-- A connection that runs on while a row is committed. -/
theorem RowOk.conn {row : LedgerRow} {tables : Tables} (ho : RowOk w c row tables) {d : C} (hd : d ≠ c)
    (h : ConnOwned w.committed (w.conn d)) : ConnOwned tables (w.conn d) where
  appends := h.appends
  open_ := h.open_
  clear r hr hc := by
    have hclear := h.clear r hr hc
    rw [Conn.sees] at hclear ⊢
    cases ht : (w.conn d).txn with
    | reading v => rw [ht] at hclear; exact hclear
    | begun => exact absurd ht (h.open_ r hr hc)
    | closed =>
      rw [ht] at hclear
      intro s hs hi
      rw [ho.ledger, List.mem_append, List.mem_singleton] at hs
      rcases hs with hs | rfl
      · exact hclear s hs hi
      · exact (ho.others d hd r hr ht hc hi.symm).symm
  listed r hr hc := by
    obtain ⟨i, hi, hkey⟩ := h.listed r hr hc
    rw [Conn.sees] at hi
    rw [Conn.sees]
    cases ht : (w.conn d).txn with
    | reading v => rw [ht] at hi; exact ⟨i, hi, hkey⟩
    | begun => rw [ht] at hi; exact ⟨i, ho.keeps hi, hkey⟩
    | closed => rw [ht] at hi; exact ⟨i, ho.keeps hi, hkey⟩

/-- Such effects keep the owners. -/
theorem Owned.apply (h : Owned w) {e : Effect C} (he : OwnerOk w c e) : Owned (w.apply c e) := by
  cases e with
  | next k writer =>
    refine ⟨h.rows, h.listed, h.settled, he.1.update h, ?_⟩
    rcases he.2 with ⟨hw, hk⟩ | hw
    · intro d hd
      obtain rfl : c = d := Option.some.inj (hw.symm.trans hd)
      simpa [World.apply] using hk
    · exact hw.update h
  | raised e txn writer =>
    exact ⟨h.rows, h.listed, h.settled, (ConnOwned.idle _ _).update h, Elsewhere.update h he⟩
  | returned row tables =>
    have ho : RowOk w c row tables := he
    refine ⟨?_, ?_, ?_, fun d => ?_, by simp [World.apply]⟩
    · intro r hr s hs hi
      simp only [World.apply, ho.ledger, List.mem_append, List.mem_singleton] at hr hs
      rcases hr with hr | rfl <;> rcases hs with hs | rfl
      · exact h.rows r hr s hs hi
      · exact ho.clear r hr hi
      · exact (ho.clear s hs hi.symm).symm
      · rfl
    · intro r hr
      simp only [World.apply, ho.ledger, List.mem_append, List.mem_singleton] at hr
      rcases hr with hr | rfl
      · obtain ⟨i, hi, hkey⟩ := h.listed r hr
        exact ⟨i, ho.keeps hi, hkey⟩
      · exact ho.listed
    · intro i hi
      simp only [World.apply, ho.ledger, List.mem_append, List.mem_singleton]
      rcases ho.adds i hi with hi | ⟨ht, hinst⟩
      · obtain ⟨r, hr, hkey⟩ := h.settled i hi
        exact ⟨r, .inl hr, hkey⟩
      · exact ⟨row, .inr rfl, ht.symm, hinst.symm⟩
    · simp only [World.apply]
      by_cases hd : d = c
      · rw [hd, Function.update_self]; exact ConnOwned.idle _ _
      · rw [Function.update_of_ne hd]; exact ho.conn hd (h.conn d)

/-- A connection that is not about to insert its ledger row does not hold the lock. -/
theorem Owned.elsewhere (h : Owned w) (hn : ∀ r, (w.conn c).running = some r → r.todo ≠ [.insertLedger]) :
    Elsewhere w c w.writer := by
  intro d hd
  refine ⟨?_, hd⟩
  rintro rfl
  obtain ⟨r, v, hr, htodo, -⟩ := h.writer d hd
  exact hn r hr htodo

theorem elsewhere_released : Elsewhere w c (w.released c) := by
  intro d hd
  rw [World.released] at hd
  split at hd
  · cases hd
  · rename_i hne
    exact ⟨fun hdc => hne (by rw [hd, hdc]), hd⟩

omit [DecidableEq C] in
/-- Where a call of `append_ledger_entry` stands. -/
theorem todo_cases (hi : Inv w) (h : Owned w) {r : Running} {s : Stmt} {rest : List Stmt}
    (hr : (w.conn c).running = some r) (hs : r.todo = s :: rest) :
    (s = .selectConflict ∧ rest = [.selectLast, .selectInstance, .insertInstance, .insertLedger]) ∨
    (s = .selectLast ∧ rest = [.selectInstance, .insertInstance, .insertLedger]) ∨
    (s = .selectInstance ∧ rest = [.insertInstance, .insertLedger]) ∨
    (s = .insertInstance ∧ rest = [.insertLedger]) ∨ (s = .insertLedger ∧ rest = []) := by
  obtain ⟨p, hp⟩ := (h.conn c).appends r hr
  have hsuf := (hi.conn c).program r hr
  rw [hs, hp, Call.program, ← List.mem_tails] at hsuf
  simpa [List.tails, or_assoc] using hsuf

theorem Conn.sees_afterRead (k : Conn) (t : Tables) (running : Option Running) :
    Conn.sees ⟨k.afterRead t, running⟩ t = k.sees t := by
  rw [Conn.sees, Conn.sees, Conn.afterRead]
  cases k.txn <;> rfl

/-- A call that goes on after a `SELECT`. -/
theorem ConnOwned.read {t : Tables} {k : Conn} {r : Running} {rest : List Stmt} (happ : ∃ p, r.call = .append p)
    (hclear : Clear (k.sees t).ledger r.call)
    (hlisted : rest = [.insertLedger] → Listed (k.sees t).instances r.call) :
    ConnOwned t ⟨k.afterRead t, some { r with todo := rest }⟩ where
  appends r' hr' := by obtain rfl := Option.some.inj hr'; exact happ
  open_ _ _ _ := by
    rw [Conn.afterRead]
    cases k.txn <;> simp
  clear r' hr' _ := by
    obtain rfl := Option.some.inj hr'
    rw [Conn.sees_afterRead]
    exact hclear
  listed r' hr' htodo := by
    obtain rfl := Option.some.inj hr'
    rw [Conn.sees_afterRead]
    exact hlisted htodo

/-- A connection that can have the lock and does not hold it reads what is committed. -/
theorem sees_committed (hm : w.mayWrite c = true) (hw : w.writer ≠ some c) :
    (w.conn c).sees w.committed = w.committed := by
  rw [World.mayWrite, Bool.and_eq_true] at hm
  rw [Conn.sees]
  cases ht : (w.conn c).txn with
  | reading v =>
    rw [ht] at hm
    exact (of_decide_eq_true hm.2).resolve_left hw
  | _ => rfl

theorem mem_insertInstance {instances : List InstanceRow} {t i ph st now : String} {row : InstanceRow} :
    row ∈ insertInstance instances t i ph st (some now) ↔
      row ∈ instances ∨ ((∀ r ∈ instances, r.instanceId ≠ i) ∧ row = ⟨t, i, ph, st, 0, false, now⟩) := by
  rw [insertInstance]
  split
  · rename_i hany
    obtain ⟨r, hr, hri⟩ := List.any_eq_true.1 hany
    exact ⟨.inl, fun h => h.elim id fun h => absurd (of_decide_eq_true hri) (h.1 r hr)⟩
  · rename_i hany
    have hall : ∀ r ∈ instances, r.instanceId ≠ i := by simpa using hany
    rw [List.mem_append, List.mem_singleton]
    exact or_congr_right ⟨fun h => ⟨hall, h⟩, fun h => h.2⟩

/-- The insert of the instance row leaves one of the call's tenant: a row that
makes SQLite ignore the insert has a ledger row, and that one is the tenant's. -/
theorem Owned.listed_insertInstance (h : Owned w) {call : Call} (hclear : Clear w.committed.ledger call)
    (ph st now : String) :
    Listed (insertInstance w.committed.instances call.tenant call.instanceId ph st (some now)) call := by
  by_cases hex : ∃ i ∈ w.committed.instances, i.instanceId = call.instanceId
  · obtain ⟨i, hi, hid⟩ := hex
    obtain ⟨r, hr, hrt, hri⟩ := h.settled i hi
    exact ⟨i, mem_insertInstance.2 (.inl hi), hrt ▸ hclear r hr (hri.trans hid), hid⟩
  · refine ⟨_, mem_insertInstance.2 (.inr ⟨fun r hr hri => hex ⟨r, hr, hri⟩, rfl⟩), rfl, rfl⟩

/-- What a connection about to insert its ledger row reads in `instances`: what is
committed, and at most its own instance row. -/
theorem Owned.seen_instances (h : Owned w) (hm : w.mayWrite c = true) {r : Running}
    (hr : (w.conn c).running = some r) :
    w.committed.instances ⊆ ((w.conn c).sees w.committed).instances ∧
    ∀ i ∈ ((w.conn c).sees w.committed).instances,
      i ∈ w.committed.instances ∨ (i.tenantId = r.call.tenant ∧ i.instanceId = r.call.instanceId) := by
  by_cases hw : w.writer = some c
  · obtain ⟨r', v, hr', -, hv, hsub, hadds⟩ := h.writer c hw
    obtain rfl := Option.some.inj (hr.symm.trans hr')
    rw [Conn.sees, hv]
    exact ⟨hsub, hadds⟩
  · rw [sees_committed hm hw]
    exact ⟨fun _ => id, fun _ => .inl⟩

/-- Every statement keeps the owners. -/
theorem Owned.effect (hi : Inv w) (h : Owned w) {r : Running} {s : Stmt} {rest : List Stmt} (now : String)
    (hr : (w.conn c).running = some r) (hs : r.todo = s :: rest) (hm : s.writes = true → w.mayWrite c = true)
    (hothers : s = .insertLedger → ∀ d, d ≠ c → ∀ q, (w.conn d).running = some q → (w.conn d).txn = .closed →
      q.checked → q.call.instanceId = r.call.instanceId → q.call.tenant = r.call.tenant) :
    OwnerOk w c (w.effect c now r rest s) := by
  have happ := (h.conn c).appends r hr
  have helse : s ≠ .insertLedger → Elsewhere w c w.writer := fun hne => h.elsewhere fun r' hr' htodo => by
    obtain rfl := Option.some.inj (hr.symm.trans hr')
    rw [hs] at htodo
    exact hne (List.cons.inj htodo).1
  rcases todo_cases hi h hr hs with ⟨rfl, rfl⟩ | ⟨rfl, rfl⟩ | ⟨rfl, rfl⟩ | ⟨rfl, rfl⟩ | ⟨rfl, rfl⟩
  · rw [World.effect]
    simp only
    split
    · exact helse (by simp)
    · rename_i hcheck
      exact ⟨ConnOwned.read happ (clear_of_checkConflict hcheck) (by simp), .inr (helse (by simp))⟩
  · have hclear := (h.conn c).clear r hr (by simp [Running.checked, hs])
    rw [World.effect]
    simp only
    split
    · exact helse (by simp)
    · exact ⟨ConnOwned.read happ hclear (by simp), .inr (helse (by simp))⟩
  · have hclear := (h.conn c).clear r hr (by simp [Running.checked, hs])
    refine ⟨ConnOwned.read happ hclear fun htodo => ?_, .inr (helse (by simp))⟩
    -- the insert is skipped only if the row was found
    split at htodo
    · rename_i hfound
      obtain ⟨i, hmem, hkey⟩ := List.any_eq_true.1 hfound
      exact ⟨i, hmem, of_decide_eq_true hkey⟩
    · simp at htodo
  · have hclear := (h.conn c).clear r hr (by simp [Running.checked, hs])
    have hw : w.writer ≠ some c := fun hw => (helse (by simp) c hw).1 rfl
    rw [sees_committed (hm rfl) hw] at hclear
    have hlisted := h.listed_insertInstance hclear r.call.protocolHash r.call.toState now
    simp only [World.effect, sees_committed (hm rfl) hw]
    refine ⟨⟨?_, ?_, ?_, ?_⟩, .inl ⟨rfl, _, _, rfl, rfl, rfl, ?_, ?_⟩⟩
    · intro r' hr'; obtain rfl := Option.some.inj hr'; exact happ
    · simp
    · intro r' hr' _; obtain rfl := Option.some.inj hr'; exact hclear
    · intro r' hr' _; obtain rfl := Option.some.inj hr'; exact hlisted
    · exact fun i hmem => mem_insertInstance.2 (.inl hmem)
    · intro i hmem
      rcases mem_insertInstance.1 hmem with hmem | ⟨-, rfl⟩
      · exact .inl hmem
      · exact .inr ⟨rfl, rfl⟩
  · have hclear := (h.conn c).clear r hr (by simp [Running.checked, hs])
    have hlisted := (h.conn c).listed r hr hs
    have hseen := h.seen_instances (hm rfl) hr
    rw [World.effect]
    simp only
    split
    · exact elsewhere_released
    · rename_i ledger hins
      obtain ⟨-, rfl⟩ := insertLedger_ok_iff.1 hins
      rw [hi.sees_eq (hm rfl)] at hclear ⊢
      exact
        { ledger := rfl
          clear := by simpa [Clear] using hclear
          keeps := hseen.1
          listed := by simpa [Listed] using hlisted
          adds := by simpa using hseen.2
          others := by simpa using hothers rfl }

/-- SQLite gives up on a statement of a connection that does not hold the lock. -/
theorem Owned.giveUp (hi : Inv w) (h : Owned w) {busy : Bool} {r : Running} {s : Stmt} {rest : List Stmt}
    {e : Effect C} (hr : (w.conn c).running = some r) (hs : r.todo = s :: rest)
    (hbusy : r.todo = [.insertLedger] → busy = true → w.writer ≠ some c)
    (he : w.giveUp c busy s = some e) : OwnerOk w c e := by
  rw [World.giveUp] at he
  split at he
  · rename_i hcond
    obtain rfl := Option.some.inj he
    intro d hd
    refine ⟨?_, hd⟩
    rintro rfl
    obtain ⟨r', v, hr', htodo, hv, -⟩ := h.writer d hd
    obtain rfl := Option.some.inj (hr.symm.trans hr')
    -- whoever holds the lock may write
    have hm : w.mayWrite d = true := by simp [World.mayWrite, hd, hv]
    rw [hm] at hcond
    exact hbusy htodo (by simpa using hcond) hd
  · cases he

/-- **What an event can do to the owners**: nothing, or one effect that keeps them. -/
theorem Owned.act (hi : Inv w) (h : Owned w) {e : Event C} (happ : e.Appends) (hok : Undisturbed w e) :
    Owned (w.act e) := by
  cases e with
  | start c call =>
    rw [World.act]
    split
    · exact h
    · rename_i hidle
      have helse : Elsewhere w c w.writer := h.elsewhere (by simp [hidle])
      split
      · exact h.apply (e := .raised _ _ _) helse
      · refine h.apply ⟨?_, .inr helse⟩
        cases call with
        | transition a => exact happ.elim
        | append p =>
          refine ⟨?_, ?_, ?_, ?_⟩
          · intro r hr; obtain rfl := Option.some.inj hr; exact ⟨p, rfl⟩
          all_goals intro r hr; obtain rfl := Option.some.inj hr; simp [Running.checked, Call.program]
  | step c busy now =>
    rw [World.act]
    split
    · exact h
    · rename_i r hr
      split
      · exact h
      · rename_i s rest hs
        refine h.apply ?_
        cases hg : w.giveUp c busy s with
        | some ef =>
          refine h.giveUp hi hr hs (fun htodo hb => ?_) hg
          simpa [hb] using hok r hr htodo
        | none =>
          rw [World.giveUp] at hg
          split at hg
          · cases hg
          · rename_i hcond
            simp only [Bool.or_eq_true, Bool.and_eq_true, Bool.not_eq_true', not_or, not_and,
              Bool.not_eq_false, Bool.not_eq_true] at hcond
            refine h.effect hi now hr hs hcond.2 fun hins => ?_
            have htodo : r.todo = [.insertLedger] := by
              subst hins
              rcases todo_cases hi h hr hs with ⟨h', -⟩ | ⟨h', -⟩ | ⟨h', -⟩ | ⟨h', -⟩ | ⟨-, rfl⟩
              all_goals first | exact hs | cases h'
            simpa [hcond.1] using hok r hr htodo
  | close c => exact h.apply (e := .next ⟨.closed, none⟩ _) ⟨ConnOwned.idle _ _, .inr elsewhere_released⟩

/-- **Owners under concurrent appends.**  In every run of `append_ledger_entry`
calls whose steps are all undisturbed, in every state reached, the rows of an
instance have one tenant, and `instances` has the instance and names that tenant. -/
theorem owners_agree (events : List (Event C)) (happ : ∀ e ∈ events, e.Appends)
    (hok : Along (fun w e => ((), World.act w e)) Undisturbed (World.initial C) events) (k : ℕ) :
    OneOwner ((World.initial C).run (events.take k)).committed := by
  have halong := hok.and_forall happ
  rw [← List.take_append_drop k events, Along.append] at halong
  have hinv : Inv ((World.initial C).run (events.take k)) ∧ Owned ((World.initial C).run (events.take k)) :=
    Along.invariant (I := fun w => Inv w ∧ Owned w)
      (fun w e hI hOk => ⟨hI.1.run [e], hI.2.act hI.1 hOk.1 hOk.2⟩) ⟨Inv.initial, Owned.initial⟩ halong.1
  exact hinv.2.oneOwner

/-! ### Two first appends -/

/-- The first proof of `loan_1` for a tenant. -/
def firstDict (tenant : String) : ProofDict where
  tenantId := some tenant
  instanceId := "loan_1"
  sequenceId := 1
  previousHash := genesisHash
  currentHash := String.ofList (List.replicate 64 'a')
  timestamp := "2024-01-01T00:00:00Z"
  fromState := "submitted"
  toState := "approved"
  modelVersion := "gpt-4"
  agentVersion := "1.0"
  policyVersion := "v1"
  metadata := .obj []
  signatureValue := String.ofList (List.replicate 128 'b')
  keyId := "key-1"
  type := none
  json := .obj []

/-- A connection executes `n` statements. -/
def steps (c : C) (n : ℕ) : List (Event C) := List.replicate n (.step c false "2024-01-01T00:00:01Z")

instance (t : Tables) : Decidable (OneOwner t) :=
  decidable_of_iff
    ((∀ r ∈ t.ledger, ∀ s ∈ t.ledger, r.instanceId = s.instanceId → r.tenantId = s.tenantId) ∧
      (∀ r ∈ t.ledger, ∃ i ∈ t.instances, i.instanceId = r.instanceId) ∧
      ∀ r ∈ t.ledger, ∀ i ∈ t.instances, i.instanceId = r.instanceId → i.tenantId = r.tenantId)
    ⟨fun h => ⟨h.1, h.2.1, h.2.2⟩, fun h => ⟨h.rows, h.listed, h.named⟩⟩

deriving instance DecidableEq for Txn

instance [Fintype C] (w : World C) : DecidablePred (Undisturbed w)
  | .step c busy _ => inferInstanceAs (Decidable (∀ r ∈ (w.conn c).running, r.todo = [.insertLedger] →
      if busy then w.writer ≠ some c
      else ∀ d, d ≠ c → ∀ q ∈ (w.conn d).running, (w.conn d).txn = .closed → Stmt.selectConflict ∉ q.todo →
        q.call.instanceId = r.call.instanceId → q.call.tenant = r.call.tenant))
  | .start _ _ => .isTrue trivial
  | .close _ => .isTrue trivial

/-- A proof that may be the first of its instance. -/
structure FirstProof (p : ProofDict) : Prop where
  signed : p.checkSignature = .ok ()
  sequenceId : p.sequenceId = 1
  previousHash : p.previousHash = genesisHash
  currentHash : sqlLength p.currentHash = 64
  signature : sqlLength p.signatureValue = 128

theorem FirstProof.insertLedger {p : ProofDict} (h : FirstProof p) (ledger : List LedgerRow)
    (hfresh : rowsOf ledger p.tenant p.instanceId = []) (now : String) :
    insertLedger ledger ((Call.append p).row now 1) = .ok (ledger ++ [(Call.append p).row now 1]) := by
  refine if_pos ⟨h.currentHash, h.signature, .inl le_rfl, ?_, ?_⟩
  · exact fun r hr => absurd (hfresh ▸ hr : r ∈ []) List.not_mem_nil
  · exact fun r hr => absurd (hfresh ▸ hr : r ∈ []) List.not_mem_nil

/-- **Two first proofs of two tenants race**: both connections look before either inserts,
and both rows are there. -/
theorem race_ledger {p q : ProofDict} (hp : FirstProof p) (hq : FirstProof q) (hi : q.instanceId = p.instanceId)
    (ht : p.tenant ≠ q.tenant) :
    ((World.initial Bool).run ([.start false (.append p), .start true (.append q)] ++
      steps false 2 ++ steps true 2 ++ steps false 3 ++ steps true 3)).committed.ledger =
      [(Call.append p).row "2024-01-01T00:00:01Z" 1, (Call.append q).row "2024-01-01T00:00:01Z" 1] := by
  simp only [steps]
  generalize "2024-01-01T00:00:01Z" = now
  have hfirst := hp.insertLedger [] rfl now
  have hsecond := hq.insertLedger [(Call.append p).row now 1] (by simp [rowsOf, Call.tenant, ht]) now
  rw [List.nil_append] at hfirst
  rw [List.singleton_append] at hsecond
  simp only [World.run, List.replicate, List.cons_append, List.nil_append, List.foldl_cons, List.foldl_nil,
    World.initial, World.act, Call.precheck, hp.signed, hq.signed, World.apply]
  simp [Call.program, Call.sequenceId, World.giveUp, Stmt.writes, World.effect, Conn.sees, Conn.afterRead,
    checkConflict, checkLink, Call.instanceId, Call.tenant, Call.previousHash, hp.sequenceId, hq.sequenceId,
    hp.previousHash, hq.previousHash, hi, ht, hasInstance, insertInstance, World.mayWrite, maxSequenceId, lastRow,
    rowsOf, hfirst, hsecond]

/-- One connection after the other, no step is disturbed. -/
theorem inTurn_undisturbed {p q : ProofDict} (hp : FirstProof p) (hq : FirstProof q) (hi : q.instanceId = p.instanceId)
    (ht : p.tenant ≠ q.tenant) :
    Along (fun w e => ((), World.act w e)) Undisturbed (World.initial Bool)
      ([.start false (.append p), .start true (.append q)] ++ steps false 5 ++ steps true 5) := by
  simp only [steps]
  generalize "2024-01-01T00:00:01Z" = now
  have hfirst := hp.insertLedger [] rfl now
  rw [List.nil_append] at hfirst
  simp only [List.replicate, List.cons_append, List.nil_append, Along, Undisturbed, World.initial,
    World.act, Call.precheck, hp.signed, hq.signed, World.apply, Running.checked]
  simp [Call.program, Call.sequenceId, World.giveUp, Stmt.writes, World.effect, Conn.sees, Conn.afterRead,
    checkConflict, checkLink, Call.instanceId, Call.tenant, Call.previousHash, hp.sequenceId, hq.sequenceId,
    hp.previousHash, hq.previousHash, hi, ht, hasInstance, insertInstance, World.mayWrite, maxSequenceId, lastRow,
    rowsOf, hfirst]

/-- Two rows of one instance, for two tenants. -/
theorem not_oneOwner_of_pair {t : Tables} {r s : LedgerRow} (hledger : t.ledger = [r, s])
    (hi : r.instanceId = s.instanceId) (ht : r.tenantId ≠ s.tenantId) : ¬ OneOwner t := by
  intro h
  have hr : r ∈ t.ledger := by simp [hledger]
  have hs : s ∈ t.ledger := by simp [hledger]
  exact ht (h.rows r hr s hs hi)

/-- Both connections look before either inserts. -/
def race : List (Event Bool) :=
  [.start false (.append (firstDict "acme")), .start true (.append (firstDict "rival"))] ++
    steps false 2 ++ steps true 2 ++ steps false 3 ++ steps true 3

/-- One connection after the other: the second one is refused. -/
def inTurn : List (Event Bool) :=
  [.start false (.append (firstDict "acme")), .start true (.append (firstDict "rival"))] ++
    steps false 5 ++ steps true 5

theorem sqlLength_replicate (n : ℕ) {c : Char} (h : c ≠ Char.ofNat 0) :
    sqlLength (String.ofList (List.replicate n c)) = n := by
  simp [sqlLength, h]

theorem firstDict_first (tenant : String) : FirstProof (firstDict tenant) where
  signed := if_pos (by rw [firstDict, String.length_ofList, List.length_replicate])
  sequenceId := rfl
  previousHash := rfl
  currentHash := sqlLength_replicate 64 (by decide)
  signature := sqlLength_replicate 128 (by decide)

/-- The calls in turn are undisturbed, so `loan_1` keeps its owner. -/
theorem owners_agree_inTurn :
    Along (fun w e => ((), World.act w e)) Undisturbed (World.initial Bool) inTurn ∧
      OneOwner ((World.initial Bool).run (inTurn.take 12)).committed := by
  have hok : Along (fun w e => ((), World.act w e)) Undisturbed (World.initial Bool) inTurn :=
    inTurn_undisturbed (firstDict_first "acme") (firstDict_first "rival") rfl (by decide)
  exact ⟨hok, owners_agree inTurn (by simp [inTurn, steps, Event.Appends]) hok 12⟩

/-- **The race.**  Both appends return, and `loan_1` belongs to two tenants. -/
theorem two_owners :
    (∀ e ∈ race, e.Appends) ∧ ¬ OneOwner ((World.initial Bool).run race).committed := by
  refine ⟨by simp [race, steps, Event.Appends], fun h => ?_⟩
  have hledger := race_ledger (firstDict_first "acme") (firstDict_first "rival") rfl (by decide)
  unfold race at h
  exact not_oneOwner_of_pair hledger rfl (by decide) h

end Steps

end Concurrent
end ProvableAi
