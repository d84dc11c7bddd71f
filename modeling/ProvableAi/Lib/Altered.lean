/-
# One row altered

A table with an `AUTOINCREMENT` key in which one row has been replaced.  A query
finds the new row in the place of the old one if it keeps the id
and still fits the query (`selectAsc_alter_same`), and with a new id between the
rows with smaller ids and those with larger ones (`selectAsc_alter_moved`).
-/

import ProvableAi.Lib.Autoincrement

namespace ProvableAi
namespace Autoincrement

variable {ρ : Type*} {id : ρ → ℤ} {table pre post : List ρ} {r r' : ρ} {p : ρ → Bool}

/-- The table with `r'` for `r`. -/
def alter [DecidableEq ρ] (table : List ρ) (r r' : ρ) : List ρ := table.map fun q => if q = r then r' else q

/-- The rows before the altered one and those after it. -/
theorem alter_split [DecidableEq ρ] (h : Ascending id table) (hr : r ∈ table) (r' : ρ) :
    ∃ pre post, table = pre ++ r :: post ∧ alter table r r' = pre ++ r' :: post := by
  obtain ⟨pre, post, rfl⟩ := List.append_of_mem hr
  obtain ⟨-, hpost, hpre⟩ := List.pairwise_append.1 h
  have hfix : ∀ l : List ρ, (∀ q ∈ l, id q ≠ id r) → (l.map fun q => if q = r then r' else q) = l := by
    intro l hl
    refine (List.map_congr_left fun q hq => ?_).trans (List.map_id l)
    rw [if_neg fun hqr => hl q hq (by rw [hqr])]
    rfl
  refine ⟨pre, post, rfl, ?_⟩
  rw [alter, List.map_append, List.map_cons, if_pos rfl, hfix pre fun q hq => ne_of_lt (hpre q hq r List.mem_cons_self),
    hfix post fun q hq => ne_of_gt ((List.pairwise_cons.1 hpost).1 q hq)]

/-- An id names one row. -/
theorem eq_of_id_eq (h : Ascending id table) {a b : ρ} (ha : a ∈ table) (hb : b ∈ table) (hid : id a = id b) : a = b := by
  induction table with
  | nil => cases ha
  | cons q rows ih =>
    obtain ⟨hq, hrows⟩ := List.pairwise_cons.1 h
    rcases List.mem_cons.1 ha with rfl | ha'
    · rcases List.mem_cons.1 hb with rfl | hb'
      · rfl
      · exact absurd hid (ne_of_lt (hq b hb'))
    · rcases List.mem_cons.1 hb with rfl | hb'
      · exact absurd hid.symm (ne_of_lt (hq a ha'))
      · exact ih hrows ha' hb'

/-- The rows in the order of ids, from any listing of them. -/
theorem selectAsc_of_perm {rows : List ρ} (hperm : (table.filter p).Perm rows) (hids : Ascending id rows) :
    selectAsc id p table = rows := by
  have hsort := (List.perm_insertionSort (fun r s : ρ => id r ≤ id s) (table.filter p)).trans hperm
  refine List.Perm.eq_of_pairwise (fun a b ha hb hab hba => ?_)
    (List.pairwise_insertionSort (fun r s : ρ => id r ≤ id s) _) (hids.imp le_of_lt) hsort
  exact eq_of_id_eq hids (hsort.mem_iff.1 ha) hb (le_antisymm hab hba)

/-- **A row that keeps its id** keeps its place, unless it is no longer selected. -/
theorem selectAsc_alter_same (h : Ascending id (pre ++ r :: post)) (hid : id r' = id r) (p : ρ → Bool) :
    selectAsc id p (pre ++ r' :: post) = pre.filter p ++ ((if p r' then [r'] else []) ++ post.filter p) := by
  have hids : Ascending id (pre ++ r' :: post) := by
    have hmap := List.pairwise_map.2 h
    rw [show (pre ++ r :: post).map id = (pre ++ r' :: post).map id by simp [hid]] at hmap
    exact List.pairwise_map.1 hmap
  rw [selectAsc_eq hids, List.filter_append, List.filter_cons]
  split_ifs
  · rfl
  · rfl

/-- **A row that is moved** stands between the rows with smaller ids and those with larger ones. -/
theorem selectAsc_alter_moved (h : Ascending id (pre ++ r :: post)) (hp : p r' = true)
    (hfree : ∀ s ∈ pre.filter p ++ post.filter p, id s ≠ id r') :
    selectAsc id p (pre ++ r' :: post) = ((pre.filter p ++ post.filter p).filter fun s => id s < id r') ++
      r' :: (pre.filter p ++ post.filter p).filter fun s => id r' < id s := by
  have hrest : Ascending id (pre.filter p ++ post.filter p) := by
    rw [← List.filter_append]
    exact (h.sublist (by simp)).filter _
  refine selectAsc_of_perm ?_ ?_
  · have hgt : ∀ s ∈ pre.filter p ++ post.filter p, decide (id r' < id s) = !decide (id s < id r') := by
      intro s hs
      have hne := hfree s hs
      rw [← decide_not, decide_eq_decide]
      omega
    rw [List.filter_append, List.filter_cons_of_pos hp, List.filter_congr hgt]
    refine List.perm_middle.trans (List.Perm.trans ?_ List.perm_middle.symm)
    exact (List.filter_append_perm _ _).symm.cons r'
  · refine List.pairwise_append.2 ⟨hrest.filter _, List.pairwise_cons.2 ⟨fun s hs => ?_, hrest.filter _⟩, fun s hs q hq => ?_⟩
    · exact of_decide_eq_true (List.mem_filter.1 hs).2
    · have hsr := of_decide_eq_true (List.mem_filter.1 hs).2
      rcases List.mem_cons.1 hq with rfl | hq
      · exact hsr
      · exact hsr.trans (of_decide_eq_true (List.mem_filter.1 hq).2)

end Autoincrement
end ProvableAi
