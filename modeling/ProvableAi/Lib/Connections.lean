/-
# Connections to one table

Any number of connections to a database in WAL mode, each at some position of its
program.  A `SELECT` outside of a transaction reads what is committed; an `INSERT`
opens a transaction, and where it raises the transaction stays open: a constraint
that failed even keeps the write lock, and whatever the connection reads from then
on it reads in the old transaction.

What a position has read was read from a prefix of what its connection sees now.
`Inv` keeps such facts, `P` being a property of what a connection sees and its
position that lasts while rows are added, and `T` one of the table.

Rows, positions and errors are of any types.
-/

import Mathlib.Data.List.Infix
import Mathlib.Logic.Function.Basic

namespace ProvableAi
namespace Connections

/-- A connection and where its program is. -/
structure Conn (π ρ : Type*) where
  position : π
  inTransaction : Bool
  /-- What an open transaction reads, from its first read on. -/
  snapshot : Option (List ρ)

/-- The database and its connections. -/
structure World (π ρ : Type*) where
  /-- The committed rows. -/
  table : List ρ
  conn : ℕ → Conn π ρ
  /-- The connection whose transaction holds the write lock. -/
  writer : Option ℕ

variable {π ρ ε : Type*}

namespace World

/-- An empty table, every connection at one position. -/
def initial (idle : π) : World π ρ := ⟨[], fun _ => ⟨idle, false, none⟩, none⟩

variable (w : World π ρ) (i : ℕ)

/-- The rows that a `SELECT` of connection `i` sees. -/
def view : List ρ := (w.conn i).snapshot.getD w.table

def setConn (c : Conn π ρ) : World π ρ := { w with conn := Function.update w.conn i c }

/-- Connection `i` at a position, its transaction as it is. -/
def setPosition (p : π) : World π ρ := w.setConn i ⟨p, (w.conn i).inTransaction, (w.conn i).snapshot⟩

/-- After a `SELECT`, which fixes the snapshot of an open transaction. -/
def afterRead (p : π) : World π ρ :=
  w.setConn i ⟨p, (w.conn i).inTransaction, if (w.conn i).inTransaction then some (w.view i) else none⟩

/-- After an `INSERT` that raised. -/
def afterFailure (p : π) (snapshot : Option (List ρ)) : World π ρ := w.setConn i ⟨p, true, snapshot⟩

/-- Another connection holds the write lock, or the transaction reads an older snapshot. -/
def Barred [DecidableEq ρ] : Prop := w.writer.any (· ≠ i) = true ∨ (w.conn i).snapshot.any (· ≠ w.table) = true

instance [DecidableEq ρ] : Decidable (w.Barred i) := inferInstanceAs (Decidable (_ ∨ _))

/-- `INSERT` and `commit`; `result` is what the statement makes of the committed table. -/
def insert [DecidableEq ρ] (p : π) (result : Except ε (List ρ)) : World π ρ :=
  if w.Barred i then w.afterFailure i p (w.conn i).snapshot
  else
    match result with
    | .ok table => { w.setConn i ⟨p, false, none⟩ with table := table, writer := none }
    | .error _ => { w.afterFailure i p (some w.table) with writer := some i }

end World

/-- The table after an `INSERT`. -/
theorem insert_table [DecidableEq ρ] {w : World π ρ} {i : ℕ} {p : π} {result : Except ε (List ρ)} :
    (w.insert i p result).table = w.table ∧ (w.Barred i ∨ ∃ e, result = .error e) ∨
      ¬ w.Barred i ∧ result = .ok (w.insert i p result).table := by
  unfold World.insert
  by_cases hb : w.Barred i
  · rw [if_pos hb]
    exact .inl ⟨rfl, .inl hb⟩
  · rw [if_neg hb]
    cases result with
    | error e => exact .inl ⟨rfl, .inr ⟨e, rfl⟩⟩
    | ok table => exact .inr ⟨hb, rfl⟩

/-! ### What the connections have read -/

/-- The table is good, open transactions read prefixes of it, and every position is good for what its connection sees. -/
structure Inv (T : List ρ → Prop) (P : List ρ → π → Prop) (w : World π ρ) : Prop where
  table : T w.table
  snapshot : ∀ i t, (w.conn i).snapshot = some t → t <+: w.table
  position : ∀ i, P (w.view i) (w.conn i).position

section Inv

variable {T : List ρ → Prop} {P : List ρ → π → Prop} {w : World π ρ} {i : ℕ} {p : π}

theorem Inv.initial (hT : T []) (hp : P [] p) : Inv T P (World.initial p) := ⟨hT, nofun, fun _ => hp⟩

theorem Inv.view_prefix (h : Inv T P w) (i : ℕ) : w.view i <+: w.table := by
  rw [World.view]
  cases hs : (w.conn i).snapshot with
  | none => exact List.prefix_refl _
  | some t => exact h.snapshot i t hs

/-- One connection changes, and the table grows. -/
theorem Inv.update (h : Inv T P w) (hmono : ∀ t t' p, t <+: t' → P t p → P t' p) {w' : World π ρ} {c : Conn π ρ}
    (hconn : w'.conn = Function.update w.conn i c) (htable : T w'.table) (hgrown : w.table <+: w'.table)
    (hsnapshot : ∀ t, c.snapshot = some t → t <+: w'.table) (hposition : P (c.snapshot.getD w'.table) c.position) :
    Inv T P w' where
  table := htable
  snapshot j t hj := by
    rw [hconn] at hj
    by_cases hji : j = i
    · rw [hji, Function.update_self] at hj
      exact hsnapshot t hj
    · rw [Function.update_of_ne hji] at hj
      exact (h.snapshot j t hj).trans hgrown
  position j := by
    rw [World.view, hconn]
    by_cases hji : j = i
    · rw [hji, Function.update_self]
      exact hposition
    · rw [Function.update_of_ne hji]
      refine hmono _ _ _ ?_ (h.position j)
      rw [World.view]
      cases (w.conn j).snapshot with
      | none => exact hgrown
      | some t => exact List.prefix_refl _

theorem Inv.setPosition (h : Inv T P w) (hmono : ∀ t t' p, t <+: t' → P t p → P t' p) (hp : P (w.view i) p) :
    Inv T P (w.setPosition i p) :=
  h.update hmono rfl h.table (List.prefix_refl _) (h.snapshot i) hp

theorem Inv.afterRead (h : Inv T P w) (hmono : ∀ t t' p, t <+: t' → P t p → P t' p) (hp : P (w.view i) p) :
    Inv T P (w.afterRead i p) := by
  refine h.update hmono rfl h.table (List.prefix_refl _) (fun t ht => ?_) ?_
  · simp only at ht
    split_ifs at ht
    obtain rfl := Option.some.inj ht
    exact h.view_prefix i
  · simp only
    split_ifs
    · exact hp
    · exact hmono _ _ _ (h.view_prefix i) hp

/-- An `INSERT` after which the position is good whatever the connection sees. -/
theorem Inv.insert [DecidableEq ρ] (h : Inv T P w) (hmono : ∀ t t' p, t <+: t' → P t p → P t' p) (hp : ∀ t, P t p)
    {result : Except ε (List ρ)}
    (hresult : ∀ table, ¬ w.Barred i → result = .ok table → T table ∧ w.table <+: table) :
    Inv T P (w.insert i p result) := by
  unfold World.insert
  by_cases hb : w.Barred i
  · rw [if_pos hb]
    exact h.update hmono rfl h.table (List.prefix_refl _) (h.snapshot i) (hp _)
  · rw [if_neg hb]
    cases result with
    | ok table =>
      obtain ⟨htable, hgrown⟩ := hresult table hb rfl
      exact h.update hmono rfl htable hgrown nofun (hp _)
    | error e =>
      refine h.update hmono rfl h.table (List.prefix_refl _) (fun t ht => ?_) (hp _)
      obtain rfl := Option.some.inj ht
      exact List.prefix_refl _

end Inv

end Connections
end ProvableAi
