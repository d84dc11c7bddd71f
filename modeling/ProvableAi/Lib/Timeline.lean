/-
# Logs read at a point in time

A log whose entries carry a time of any linear order.  What was in force at `T`
is the last entry that is not later than `T`; one more entry is in force from its
own time on and changes nothing before (`asOf_concat`).
-/

import Mathlib.Order.Lattice
import Mathlib.Data.List.Basic

namespace ProvableAi
namespace Timeline

variable {α τ : Type*} [LinearOrder τ] (time : α → τ)

/-- The last entry that is not later than `T`. -/
def asOf (log : List α) (T : τ) : Option α := (log.filter fun x => time x ≤ T).getLast?

variable {time} {log : List α} {T : τ}

@[simp] theorem asOf_nil : asOf time [] T = none := rfl

theorem asOf_concat {x : α} : asOf time (log ++ [x]) T = if time x ≤ T then some x else asOf time log T := by
  rw [asOf, List.filter_append]
  by_cases hx : time x ≤ T
  · rw [List.filter_cons_of_pos (by simpa using hx), if_pos hx, List.filter_nil, List.getLast?_concat]
  · rw [List.filter_cons_of_neg (by simpa using hx), if_neg hx, List.filter_nil, List.append_nil]
    rfl

theorem mem_of_asOf {x : α} (h : asOf time log T = some x) : x ∈ log ∧ time x ≤ T := by
  have hmem := List.mem_of_getLast? h
  rw [List.mem_filter, decide_eq_true_eq] at hmem
  exact hmem

end Timeline
end ProvableAi
