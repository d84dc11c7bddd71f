/-
# Lists up to order

Two lists whose images agree up to order pair up (`rel_of_map_perm`), and a
pairing carries over to everything that the images determine
(`map_perm_congr`).  A digest of a sorted list is taken of the list up to order,
so this is what such a digest can say about the values it was made from.
-/

import Mathlib.Data.Multiset.MapFold

namespace ProvableAi
namespace Reorder

variable {α β γ δ : Type*}

/-- Lists with the same images up to order pair up. -/
theorem rel_of_map_perm {f : α → γ} {g : β → γ} {xs : List α} {ys : List β} (h : (xs.map f).Perm (ys.map g)) :
    Multiset.Rel (fun x y => f x = g y) (xs : Multiset α) (ys : Multiset β) :=
  Multiset.rel_map.1 (Multiset.rel_eq.2 (by simpa using h))

theorem map_perm_of_rel {f : α → γ} {g : β → γ} {xs : List α} {ys : List β}
    (h : Multiset.Rel (fun x y => f x = g y) (xs : Multiset α) (ys : Multiset β)) : (xs.map f).Perm (ys.map g) := by
  simpa using Multiset.rel_eq.1 (Multiset.rel_map.2 h)

/-- **What the images determine agrees up to order**, if the images do. -/
theorem map_perm_congr {f : α → γ} {g : β → γ} {f' : α → δ} {g' : β → δ} {xs : List α} {ys : List β}
    (h : (xs.map f).Perm (ys.map g)) (hfg : ∀ x ∈ xs, ∀ y ∈ ys, f x = g y → f' x = g' y) :
    (xs.map f').Perm (ys.map g') :=
  map_perm_of_rel ((rel_of_map_perm h).mono hfg)

end Reorder
end ProvableAi
