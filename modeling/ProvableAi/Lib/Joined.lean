/-
# Texts joined by a separator

Texts that are joined by a separator can be told apart by the pieces between the
separators, and by nothing else (`intercalate_inj_iff`): a separator inside a
text reads like one between two texts.  Where no text has one, the pieces are
the texts (`pieces_eq_iff`), with a separator between them or after each.  Of two joined texts the first one is the same, or it
goes on past the separator (`first_eq_or_extends`).
-/

import Mathlib.Data.List.Basic

namespace ProvableAi
namespace Joined

theorem first_eq_or_extends {α : Type*} {sep : α} {a a' b b' : List α} (ha : sep ∉ a) (h : a ++ sep :: b = a' ++ sep :: b') :
    a = a' ∧ b = b' ∨ ∃ c, a' = a ++ sep :: c ∧ b = c ++ sep :: b' := by
  rcases List.append_eq_append_iff.1 h with ⟨c, rfl, hc⟩ | ⟨c, rfl, hc⟩
  · cases c with
    | nil => exact .inl ⟨(List.append_nil a).symm, by simpa using hc⟩
    | cons x c =>
      obtain ⟨rfl, rfl⟩ := List.cons.inj hc
      exact .inr ⟨c, rfl, rfl⟩
  · cases c with
    | nil => exact .inl ⟨List.append_nil a', by simpa using hc.symm⟩
    | cons x c =>
      obtain ⟨rfl, -⟩ := List.cons.inj hc
      exact absurd (List.mem_append_right _ (List.mem_cons_self ..)) ha

variable {α : Type*} [BEq α] [LawfulBEq α]

/-- The pieces of all texts, in order. -/
def pieces (sep : α) (texts : List (List α)) : List (List α) := texts.flatMap fun t => t.splitOn sep

/-- Splitting the joined texts gives the pieces of all of them. -/
theorem splitOn_intercalate (sep : α) {texts : List (List α)} (hne : texts ≠ []) :
    ([sep].intercalate texts).splitOn sep = pieces sep texts := by
  induction texts with
  | nil => exact absurd rfl hne
  | cons t texts ih =>
    cases texts with
    | nil => simp [pieces]
    | cons u texts =>
      have h := ih (by simp)
      rw [List.intercalate_cons_cons, List.append_assoc, List.singleton_append, List.splitOn_append_cons_self, h]
      rfl

/-- **The pieces are what joined texts determine.** -/
theorem intercalate_inj_iff (sep : α) {texts others : List (List α)} (hne : texts ≠ []) (hne' : others ≠ []) :
    [sep].intercalate texts = [sep].intercalate others ↔ pieces sep texts = pieces sep others := by
  rw [← splitOn_intercalate sep hne, ← splitOn_intercalate sep hne']
  refine ⟨congrArg _, fun h => ?_⟩
  have h' := congrArg (fun l => [sep].intercalate l) h
  simpa only [List.intercalate_splitOn] using h'

theorem pieces_of_plain {sep : α} {texts : List (List α)} (h : ∀ t ∈ texts, sep ∉ t) : pieces sep texts = texts := by
  induction texts with
  | nil => rfl
  | cons t texts ih =>
    have ht := List.splitOn_eq_singleton (h t (List.mem_cons_self ..))
    rw [pieces, List.flatMap_cons, ht, List.singleton_append]
    exact congrArg _ (ih fun u hu => h u (List.mem_cons_of_mem _ hu))

/-- A piece has no separator. -/
theorem not_mem_of_mem_splitOn {sep : α} {t : List α} : ∀ {p : List α}, p ∈ t.splitOn sep → sep ∉ p := by
  induction t with
  | nil =>
    intro p hp
    rw [List.splitOn_nil, List.mem_singleton] at hp
    rw [hp]
    exact List.not_mem_nil
  | cons x t ih =>
    intro p hp
    rw [List.splitOn_cons_eq_if_modifyHead] at hp
    split_ifs at hp with hx
    · rcases List.mem_cons.1 hp with rfl | hp
      · exact List.not_mem_nil
      · exact ih hp
    · cases hpieces : t.splitOn sep with
      | nil => exact absurd hpieces (List.splitOn_ne_nil sep t)
      | cons q qs =>
        rw [hpieces, List.modifyHead_cons] at hp
        rw [hpieces] at ih
        rcases List.mem_cons.1 hp with rfl | hp
        · rw [List.mem_cons, not_or]
          exact ⟨fun h => hx (beq_iff_eq.2 h.symm), ih List.mem_cons_self⟩
        · exact ih (List.mem_cons_of_mem _ hp)

/-- **The pieces are the texts exactly where no text has a separator.** -/
theorem pieces_eq_iff {sep : α} {texts : List (List α)} : pieces sep texts = texts ↔ ∀ t ∈ texts, sep ∉ t := by
  refine ⟨fun h t ht => ?_, pieces_of_plain⟩
  rw [← h] at ht
  obtain ⟨u, -, htu⟩ := List.mem_flatMap.1 ht
  exact not_mem_of_mem_splitOn htu

/-- Texts with a separator after each. -/
def terminated (sep : α) (texts : List (List α)) : List α := texts.flatMap fun t => t ++ [sep]

omit [BEq α] [LawfulBEq α] in
theorem terminated_eq (sep : α) (texts : List (List α)) : terminated sep texts = [sep].intercalate (texts ++ [[]]) := by
  induction texts with
  | nil => rfl
  | cons t texts ih =>
    have hne : texts ++ [[]] ≠ [] := by simp
    obtain ⟨u, us, hu⟩ := List.exists_cons_of_ne_nil hne
    rw [terminated, List.flatMap_cons, ← terminated, ih, List.cons_append, hu, List.intercalate_cons_cons]

/-- **Terminated texts are told apart exactly where none of them has a separator.** -/
theorem splitOn_terminated_iff {sep : α} {texts : List (List α)} :
    (terminated sep texts).splitOn sep = texts ++ [[]] ↔ ∀ t ∈ texts, sep ∉ t := by
  rw [terminated_eq, splitOn_intercalate sep (by simp), pieces_eq_iff, List.forall_mem_append]
  simp

end Joined
end ProvableAi
