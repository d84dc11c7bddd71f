/-
# Two machines side by side

A machine takes an input in a state and answers with an output and a new state.
Two machines run over one list of inputs, the second one over the inputs that
are kept; `simulation` compares what they answer to these.

It is the rule behind both ways in which two runs are compared here: a machine
against another implementation (every input kept), and a machine against itself
with some inputs taken out.  `Ok` is what an input has to satisfy in the state it
finds, for runs in which not every input is harmless (`Along`).
-/

import Mathlib.Data.List.Forall2

namespace ProvableAi
namespace Lockstep

variable {σ τ ι ο ω : Type*}

/-- The state after the inputs. -/
def final (step : σ → ι → ο × σ) (s : σ) (is : List ι) : σ := is.foldl (fun s i => (step s i).2) s

/-- The answers to the inputs that are kept, each with its input. -/
def outputs (step : σ → ι → ο × σ) (keep : ι → Bool) : σ → List ι → List (ι × ο)
  | _, [] => []
  | s, i :: is =>
    if keep i then (i, (step s i).1) :: outputs step keep (step s i).2 is
    else outputs step keep (step s i).2 is

/-- Every input is good in the state that it finds. -/
def Along (step : σ → ι → ο × σ) (Ok : σ → ι → Prop) : σ → List ι → Prop
  | _, [] => True
  | s, i :: is => Ok s i ∧ Along step Ok (step s i).2 is

instance instDecidableAlong (step : σ → ι → ο × σ) (Ok : σ → ι → Prop) [∀ s, DecidablePred (Ok s)] :
    ∀ (s : σ) (is : List ι), Decidable (Along step Ok s is)
  | _, [] => .isTrue trivial
  | s, i :: is =>
    have := instDecidableAlong step Ok (step s i).2 is
    inferInstanceAs (Decidable (Ok s i ∧ Along step Ok (step s i).2 is))

theorem Along.append {step : σ → ι → ο × σ} {Ok : σ → ι → Prop} {is js : List ι} : ∀ {s : σ},
    Along step Ok s (is ++ js) ↔ Along step Ok s is ∧ Along step Ok (final step s is) js := by
  induction is with
  | nil => intro s; simp [Along, final]
  | cons i is ih =>
    intro s
    rw [List.cons_append, Along, Along, ih, and_assoc]
    rfl

theorem Along.and_forall {step : σ → ι → ο × σ} {Ok : σ → ι → Prop} {P : ι → Prop} {is : List ι} :
    ∀ {s : σ}, Along step Ok s is → (∀ i ∈ is, P i) → Along step (fun s i => P i ∧ Ok s i) s is := by
  induction is with
  | nil => exact fun _ _ => trivial
  | cons i is ih =>
    intro s hgood hP
    exact ⟨⟨hP i (by simp), hgood.1⟩, ih hgood.2 fun j hj => hP j (by simp [hj])⟩

theorem final_concat (step : σ → ι → ο × σ) (s : σ) (is : List ι) (i : ι) :
    final step s (is ++ [i]) = (step (final step s is) i).2 := by
  rw [final, List.foldl_append]
  rfl

theorem outputs_concat (step : σ → ι → ο × σ) {keep : ι → Bool} {i : ι} (hi : keep i = true) {is : List ι} :
    ∀ s : σ, outputs step keep s (is ++ [i]) = outputs step keep s is ++ [(i, (step (final step s is) i).1)] := by
  induction is with
  | nil => intro s; simp [outputs, final, hi]
  | cons j is ih =>
    intro s
    rw [List.cons_append, outputs, outputs, ih]
    split_ifs <;> rfl

/-- The answers to some of the inputs that are kept. -/
theorem outputs_filter (step : σ → ι → ο × σ) {keep sub : ι → Bool} (h : ∀ i, sub i = true → keep i = true)
    {is : List ι} : ∀ s : σ, outputs step sub s is = (outputs step keep s is).filter fun x => sub x.1 := by
  induction is with
  | nil => exact fun _ => rfl
  | cons i is ih =>
    intro s
    rw [outputs, outputs, ih]
    cases hs : sub i with
    | true =>
      rw [if_pos rfl, if_pos (h i hs), List.filter_cons_of_pos]
      exact hs
    | false =>
      rw [if_neg (by simp)]
      split_ifs
      · rw [List.filter_cons_of_neg (by simp [hs])]
      · rfl

/-- Related answers that are equal on some inputs have the same answers there. -/
theorem filter_eq_of_related {sub : ι → Bool} {xs ys : List (ι × ο)}
    (h : List.Forall₂ (fun x y => x.1 = y.1 ∧ (sub x.1 = true → x.2 = y.2)) xs ys) :
    (xs.filter fun x => sub x.1) = ys.filter fun y => sub y.1 := by
  induction h with
  | nil => rfl
  | @cons x y xs ys hxy _ ih =>
    rw [List.filter_cons, List.filter_cons, ih, hxy.1]
    split_ifs with hs
    · rw [Prod.ext hxy.1 (hxy.2 (hxy.1 ▸ hs))]
    · rfl

/-- The last answers of two runs whose answers are related. -/
theorem last_related {step₁ : σ → ι → ο × σ} {step₂ : τ → ι → ω × τ} {Q : ι × ο → ι × ω → Prop} {s : σ} {t : τ}
    {is : List ι} {i : ι} (h : List.Forall₂ Q (outputs step₁ (fun _ => true) s (is ++ [i]))
      (outputs step₂ (fun _ => true) t (is ++ [i]))) :
    Q (i, (step₁ (final step₁ s is) i).1) (i, (step₂ (final step₂ t is) i).1) := by
  rw [outputs_concat step₁ rfl, outputs_concat step₂ rfl] at h
  have hrev := List.forall₂_reverse_iff.2 h
  rw [List.reverse_concat, List.reverse_concat, List.forall₂_cons] at hrev
  exact hrev.1

/-- **Invariants.**  What good inputs keep holds at the end of every good run. -/
theorem Along.invariant {step : σ → ι → ο × σ} {Ok : σ → ι → Prop} {I : σ → Prop}
    (hstep : ∀ s i, I s → Ok s i → I (step s i).2) {is : List ι} :
    ∀ {s : σ}, I s → Along step Ok s is → I (final step s is) := by
  induction is with
  | nil => exact fun h _ => h
  | cons i is ih => exact fun h hgood => ih (hstep _ i h hgood.1) hgood.2

/-- The same where what is good does not depend on the state. -/
theorem invariant_of_forall {step : σ → ι → ο × σ} {P : ι → Prop} {I : σ → Prop}
    (hstep : ∀ s i, I s → P i → I (step s i).2) {is : List ι} {s : σ} (hs : I s) (h : ∀ i ∈ is, P i) :
    I (final step s is) := by
  induction is generalizing s with
  | nil => exact hs
  | cons i is ih =>
    obtain ⟨hi, his⟩ := List.forall_mem_cons.1 h
    exact ih (hstep s i hs hi) his

/-- **Simulation.**  If good inputs that are kept lead related states to related
answers and related states, and good inputs that are not kept lead related states
to related states while the second machine rests, then along every good run the
answers to what is kept are related one by one, and so are the states at the end. -/
theorem simulation {step₁ : σ → ι → ο × σ} {step₂ : τ → ι → ω × τ} {keep : ι → Bool} {Ok : σ → ι → Prop}
    {R : σ → τ → Prop} {Obs : ι → ο → ω → Prop}
    (hkeep : ∀ s t i, R s t → Ok s i → keep i = true →
      Obs i (step₁ s i).1 (step₂ t i).1 ∧ R (step₁ s i).2 (step₂ t i).2)
    (hskip : ∀ s t i, R s t → Ok s i → keep i = false → R (step₁ s i).2 t) {is : List ι} :
    ∀ {s : σ} {t : τ}, R s t → Along step₁ Ok s is →
      List.Forall₂ (fun x y => x.1 = y.1 ∧ Obs x.1 x.2 y.2) (outputs step₁ keep s is)
        (outputs step₂ (fun _ => true) t (is.filter keep)) ∧
      R (final step₁ s is) (final step₂ t (is.filter keep)) := by
  induction is with
  | nil => exact fun h _ => ⟨.nil, h⟩
  | cons i is ih =>
    intro s t h ⟨hok, hrest⟩
    cases hk : keep i with
    | true =>
      obtain ⟨hobs, hnext⟩ := hkeep s t i h hok hk
      obtain ⟨hout, hend⟩ := ih hnext hrest
      rw [List.filter_cons_of_pos hk, outputs, outputs, if_pos hk, if_pos rfl]
      exact ⟨.cons ⟨rfl, hobs⟩ hout, hend⟩
    | false =>
      obtain ⟨hout, hend⟩ := ih (hskip s t i h hok hk) hrest
      rw [List.filter_cons_of_neg (by simp [hk]), outputs, if_neg (by simp [hk])]
      exact ⟨hout, hend⟩

end Lockstep
end ProvableAi
