/-
# Tables with an `AUTOINCREMENT` key

A table to which rows are only added, each under the next id.  A query orders by
id; as long as rows are only added, that is the order of the table
(`selectAsc_eq`), and a new row comes last among the rows it is selected with
(`selectAsc_concat`).

The rows are of any type; `id` reads the key.
-/

import Mathlib.Data.List.Sort
import Mathlib.Data.Int.Order.Basic

namespace ProvableAi
namespace Autoincrement

variable {ρ : Type*} (id : ρ → ℤ)

/-- The id of the next row. -/
def nextId (table : List ρ) : ℤ := table.foldl (fun m r => if m < id r then id r else m) 0 + 1

/-- `SELECT * … WHERE p ORDER BY id ASC`. -/
def selectAsc (p : ρ → Bool) (table : List ρ) : List ρ :=
  (table.filter p).insertionSort fun r s => id r ≤ id s

/-- The ids ascend. -/
def Ascending (table : List ρ) : Prop := table.Pairwise fun r s => id r < id s

variable {id} {table : List ρ} {row : ρ}

theorem selectAsc_eq (h : Ascending id table) (p : ρ → Bool) : selectAsc id p table = table.filter p := by
  refine List.Pairwise.insertionSort_eq (r := fun r s => id r ≤ id s) ?_
  exact (h.filter _).imp fun hlt => le_of_lt hlt

theorem lt_nextId {r : ρ} (hr : r ∈ table) : id r < nextId id table := by
  have hfold : ∀ (l : List ρ) (m : ℤ), m ≤ l.foldl (fun m r => if m < id r then id r else m) m ∧
      ∀ r ∈ l, id r ≤ l.foldl (fun m r => if m < id r then id r else m) m := by
    intro l
    induction l with
    | nil => intro m; simp
    | cons s l ih =>
      intro m
      obtain ⟨hm, hl⟩ := ih (if m < id s then id s else m)
      rw [List.foldl_cons]
      refine ⟨?_, List.forall_mem_cons.2 ⟨?_, hl⟩⟩
      · split_ifs at hm ⊢ <;> omega
      · split_ifs at hm ⊢ <;> omega
  have := (hfold table 0).2 r hr
  rw [nextId]
  omega

theorem Ascending.concat (h : Ascending id table) (hid : ∀ r ∈ table, id r < id row) :
    Ascending id (table ++ [row]) :=
  List.pairwise_append.2 ⟨h, List.pairwise_singleton _ _, fun r hr s hs => by
    rw [List.mem_singleton.1 hs]; exact hid r hr⟩

/-- A row with a new id comes last. -/
theorem selectAsc_concat (h : Ascending id table) (hid : ∀ r ∈ table, id r < id row) (p : ρ → Bool) :
    selectAsc id p (table ++ [row]) =
      if p row then selectAsc id p table ++ [row] else selectAsc id p table := by
  rw [selectAsc_eq (h.concat hid), selectAsc_eq h, List.filter_append]
  split_ifs with hp
  · simp [hp]
  · simp [hp]

end Autoincrement
end ProvableAi
