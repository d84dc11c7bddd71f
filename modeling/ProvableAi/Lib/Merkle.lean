/-
# Binary trees over a list of leaves

A level is a list of nodes.  Neighbours are joined by `node`; a level of odd
length is first padded with its last node.  `climb` goes up until one node is
left, `path` collects the siblings that a leaf meets on the way.

`fold_path`: a leaf climbs along its siblings to the root.

`climb_inj`: the root determines the leaves among lists of one length, where
`node` is injective on the pairs that are joined.  The length is needed: a list
of odd length and its padding have the same level above.

What a root determines among lists of any length is the full tree that the
padding stands for (`full`, `iterate_up_full`, `full_inj`).
-/

import Mathlib.Data.Nat.Bitwise
import Mathlib.Data.Nat.Log
import Mathlib.Data.Set.Function

namespace ProvableAi
namespace Merkle

universe u

variable {α : Type u}

/-- A level of even length. -/
def pad (l : List α) : List α := if l.length % 2 = 1 then l ++ l.getLast?.toList else l

/-- The neighbours that are joined. -/
def neighbours : List α → List (α × α)
  | [] => []
  | [_] => []
  | left :: right :: rest => (left, right) :: neighbours rest

/-- Where a sibling stands. -/
inductive Position where
  | left
  | right
  deriving DecidableEq

/-- A step of a path: the sibling and where it stands. -/
structure Step (α : Type*) where
  hash : α
  position : Position
  deriving DecidableEq

section

variable (node : α → α → α)

/-- The level above. -/
def up (l : List α) : List α := (neighbours (pad l)).map fun p => node p.1 p.2

/-- At most `n` levels up, until one node is left. -/
def climb : ℕ → List α → List α
  | 0, l => l
  | n + 1, l => if 1 < l.length then climb n (up node l) else l

/-- The pairs that are joined on the way. -/
def joined : ℕ → List α → List (α × α)
  | 0, _ => []
  | n + 1, l => if 1 < l.length then neighbours (pad l) ++ joined n (up node l) else []

/-- The siblings of the node at `i` and of those above it. -/
def path : ℕ → List α → ℕ → List (Step α)
  | 0, _, _ => []
  | n + 1, l, i =>
    if 1 < l.length then
      match (pad l)[i ^^^ 1]? with
      | some sibling =>
        ⟨sibling, if i % 2 = 0 then .right else .left⟩ :: path n (up node l) (i / 2)
      | none => []
    else []

/-- The node above a node and its sibling. -/
def above (x : α) (s : Step α) : α :=
  match s.position with
  | .left => node s.hash x
  | .right => node x s.hash

end

/-! ### Lengths -/

theorem pad_length (l : List α) : (pad l).length = 2 * ((l.length + 1) / 2) := by
  rw [pad]
  split_ifs with h
  · have hne : l ≠ [] := by rintro rfl; simp at h
    rw [List.getLast?_eq_some_getLast hne]
    simp only [Option.toList_some, List.length_append, List.length_singleton]
    omega
  · omega

theorem neighbours_length (l : List α) : (neighbours l).length = l.length / 2 := by
  induction l using neighbours.induct with
  | case1 => simp [neighbours]
  | case2 a => simp [neighbours]
  | case3 a b l ih =>
    simp only [neighbours, List.length_cons, ih]
    omega

theorem up_length (node : α → α → α) (l : List α) : (up node l).length = (l.length + 1) / 2 := by
  rw [up, List.length_map, neighbours_length, pad_length]
  omega

/-- As many levels as there are leaves are enough. -/
theorem climb_length (node : α → α → α) {n : ℕ} : ∀ {l : List α}, l ≠ [] → l.length ≤ n →
    (climb node n l).length = 1 := by
  induction n with
  | zero => intro l hne hl; exact absurd (List.length_eq_zero_iff.1 (by omega)) hne
  | succ n ih =>
    intro l hne hl
    have hpos := List.length_pos_iff.2 hne
    rw [climb]
    split_ifs with h
    · have hup := up_length node l
      refine ih (fun h0 => ?_) (by omega)
      rw [h0] at hup
      simp only [List.length_nil] at hup
      omega
    · omega

/-! ### The path of a leaf -/

theorem pad_getElem? {l : List α} {i : ℕ} {x : α} (h : l[i]? = some x) : (pad l)[i]? = some x := by
  rw [pad]
  split_ifs
  · rw [List.getElem?_append_left (List.getElem?_eq_some_iff.1 h).1, h]
  · exact h

/-- The pair at `k` is that of the nodes at `2 * k` and `2 * k + 1`. -/
theorem neighbours_getElem? {l : List α} : ∀ {k : ℕ} {a b : α}, l[2 * k]? = some a → l[2 * k + 1]? = some b →
    (neighbours l)[k]? = some (a, b) := by
  induction l using neighbours.induct with
  | case1 => intro k a b ha _; cases ha
  | case2 c => intro k a b _ hb; cases hb
  | case3 c d l ih =>
    intro k a b ha hb
    cases k with
    | zero => rw [← Option.some.inj ha, ← Option.some.inj hb]; rfl
    | succ k => exact ih ha hb

/-- **One level**: a node has a sibling, and the two are joined where the path goes on. -/
theorem up_above (node : α → α → α) {l : List α} {i : ℕ} {x : α} (h : l[i]? = some x) :
    ∃ s, (pad l)[i ^^^ 1]? = some s ∧
      (up node l)[i / 2]? = some (above node x ⟨s, if i % 2 = 0 then .right else .left⟩) := by
  have hx := pad_getElem? h
  obtain ⟨hi, -⟩ := List.getElem?_eq_some_iff.1 hx
  have heven := pad_length l
  rcases Nat.mod_two_eq_zero_or_one i with hm | hm
  · obtain ⟨s, hs⟩ : ∃ s, (pad l)[i + 1]? = some s := ⟨_, List.getElem?_eq_getElem (by omega)⟩
    have hk : 2 * (i / 2) = i := by omega
    have hpair := neighbours_getElem? (k := i / 2) (hk.symm ▸ hx) (hk.symm ▸ hs)
    refine ⟨s, ?_, ?_⟩
    · rwa [Nat.xor_one_of_even (Nat.even_iff.2 hm)]
    · rw [up, List.getElem?_map, hpair, if_pos hm]
      rfl
  · obtain ⟨s, hs⟩ : ∃ s, (pad l)[i - 1]? = some s := ⟨_, List.getElem?_eq_getElem (by omega)⟩
    have hk : 2 * (i / 2) = i - 1 := by omega
    have hk' : 2 * (i / 2) + 1 = i := by omega
    have hpair := neighbours_getElem? (k := i / 2) (hk.symm ▸ hs) (hk'.symm ▸ hx)
    refine ⟨s, ?_, ?_⟩
    · rwa [Nat.xor_one_of_odd (Nat.odd_iff.2 hm)]
    · rw [up, List.getElem?_map, hpair, if_neg (by omega)]
      rfl

/-- **A leaf climbs along its path to the root.** -/
theorem fold_path (node : α → α → α) {n : ℕ} : ∀ {l : List α} {i : ℕ} {x r : α}, l[i]? = some x →
    climb node n l = [r] → (path node n l i).foldl (above node) x = r := by
  have hone : ∀ {i : ℕ} {x r : α}, [r][i]? = some x → x = r := by
    intro i x r h
    cases i with
    | zero => exact (Option.some.inj h).symm
    | succ i => cases h
  induction n with
  | zero =>
    intro l i x r h hr
    obtain rfl : l = [r] := hr
    exact hone h
  | succ n ih =>
    intro l i x r h hr
    rw [climb] at hr
    rw [path]
    by_cases hl : 1 < l.length
    · obtain ⟨s, hs, hup⟩ := up_above node h
      rw [if_pos hl] at hr
      rw [if_pos hl, hs]
      exact ih hup hr
    · rw [if_neg hl] at hr ⊢
      obtain rfl : l = [r] := hr
      exact hone h

/-! ### What the root determines -/

/-- Among lists of one length the padding determines the level. -/
theorem pad_inj {l l' : List α} (hlen : l.length = l'.length) (h : pad l = pad l') : l = l' := by
  rw [pad, pad, hlen] at h
  split_ifs at h
  · exact List.append_inj_left h hlen
  · exact h

/-- Among lists of one even length the pairs do. -/
theorem neighbours_inj {l : List α} : ∀ {l' : List α}, l.length = l'.length → l.length % 2 = 0 →
    neighbours l = neighbours l' → l = l' := by
  induction l using neighbours.induct with
  | case1 => intro l' hlen _ _; exact (List.length_eq_zero_iff.1 hlen.symm).symm
  | case2 a => intro l' _ heven _; simp at heven
  | case3 a b l ih =>
    intro l' hlen heven h
    match l' with
    | c :: d :: l' =>
      rw [neighbours, neighbours, List.cons.injEq, Prod.mk.injEq] at h
      simp only [List.length_cons] at hlen heven
      rw [h.1.1, h.1.2, ih (by omega) (by omega) h.2]

/-- One level down, where `node` is injective on the pairs. -/
theorem up_inj {node : α → α → α} {l l' : List α} (hlen : l.length = l'.length)
    (hinj : Set.InjOn (fun p : α × α => node p.1 p.2) {p | p ∈ neighbours (pad l) ∨ p ∈ neighbours (pad l')})
    (h : up node l = up node l') : l = l' := by
  refine pad_inj hlen (neighbours_inj (by rw [pad_length, pad_length, hlen]) (by rw [pad_length]; omega) ?_)
  have hget : ∀ k : ℕ, (neighbours (pad l))[k]? = (neighbours (pad l'))[k]? := by
    intro k
    have hk := congrArg (fun m => m[k]?) h
    simp only [up, List.getElem?_map] at hk
    cases hp : (neighbours (pad l))[k]? with
    | none => simpa [hp] using hk.symm
    | some p =>
      rw [hp] at hk
      obtain ⟨q, hq, hpq⟩ := Option.map_eq_some_iff.1 hk.symm
      rw [hq, hinj (.inl (List.mem_of_getElem? hp)) (.inr (List.mem_of_getElem? hq)) hpq.symm]
  exact List.ext_getElem? hget

/-- **The root determines the leaves** among lists of one length. -/
theorem climb_inj {node : α → α → α} {n : ℕ} : ∀ {l l' : List α}, l.length = l'.length →
    Set.InjOn (fun p : α × α => node p.1 p.2) {p | p ∈ joined node n l ∨ p ∈ joined node n l'} →
    climb node n l = climb node n l' → l = l' := by
  induction n with
  | zero => exact fun _ _ h => h
  | succ n ih =>
    intro l l' hlen hinj h
    rw [climb, climb] at h
    rw [joined, joined] at hinj
    by_cases hl : 1 < l.length
    · have hl' : 1 < l'.length := hlen ▸ hl
      simp only [if_pos hl, if_pos hl'] at h hinj
      have hup : up node l = up node l' :=
        ih (by rw [up_length, up_length, hlen]) (hinj.mono fun p hp => hp.imp (List.mem_append_right _)
          (List.mem_append_right _)) h
      exact up_inj hlen (hinj.mono fun p hp => hp.imp (List.mem_append_left _) (List.mem_append_left _)) hup
    · have hl' : ¬ 1 < l'.length := hlen ▸ hl
      rwa [if_neg hl, if_neg hl'] at h

/-! ### What holds of all nodes -/

theorem mem_of_mem_pad {l : List α} {x : α} (h : x ∈ pad l) : x ∈ l := by
  rw [pad] at h
  split_ifs at h
  · rcases List.mem_append.1 h with h | h
    · exact h
    · exact List.mem_of_getLast? (Option.mem_toList.1 h)
  · exact h

theorem mem_of_mem_neighbours {l : List α} {p : α × α} (h : p ∈ neighbours l) : p.1 ∈ l ∧ p.2 ∈ l := by
  induction l using neighbours.induct with
  | case1 => cases h
  | case2 a => cases h
  | case3 a b l ih =>
    rw [neighbours] at h
    rcases List.mem_cons.1 h with rfl | h
    · simp
    · have hp := ih h
      simp [hp.1, hp.2]

section

variable {node : α → α → α} {P : α → Prop} (hnode : ∀ a b, P a → P b → P (node a b))
include hnode

/-- What `node` keeps and holds of a level holds of the level above … -/
theorem forall_up {l : List α} (hl : ∀ x ∈ l, P x) : ∀ x ∈ up node l, P x := by
  intro x hx
  obtain ⟨p, hp, rfl⟩ := List.mem_map.1 hx
  obtain ⟨h₁, h₂⟩ := mem_of_mem_neighbours hp
  exact hnode _ _ (hl _ (mem_of_mem_pad h₁)) (hl _ (mem_of_mem_pad h₂))

/-- … of all that is joined on the way … -/
theorem forall_joined {n : ℕ} : ∀ {l : List α}, (∀ x ∈ l, P x) → ∀ p ∈ joined node n l, P p.1 ∧ P p.2 := by
  induction n with
  | zero => intro l _ p hp; cases hp
  | succ n ih =>
    intro l hl p hp
    rw [joined] at hp
    split_ifs at hp
    · rcases List.mem_append.1 hp with hp | hp
      · obtain ⟨h₁, h₂⟩ := mem_of_mem_neighbours hp
        exact ⟨hl _ (mem_of_mem_pad h₁), hl _ (mem_of_mem_pad h₂)⟩
      · exact ih (forall_up hnode hl) p hp
    · cases hp

/-- … of the root … -/
theorem forall_climb {n : ℕ} : ∀ {l : List α}, (∀ x ∈ l, P x) → ∀ x ∈ climb node n l, P x := by
  induction n with
  | zero => exact fun hl => hl
  | succ n ih =>
    intro l hl
    rw [climb]
    split_ifs
    · exact ih (forall_up hnode hl)
    · exact hl

/-- … and of the siblings on a path. -/
theorem forall_path {n : ℕ} : ∀ {l : List α} {i : ℕ}, (∀ x ∈ l, P x) → ∀ s ∈ path node n l i, P s.hash := by
  induction n with
  | zero => intro l i _ s hs; cases hs
  | succ n ih =>
    intro l i hl s hs
    rw [path] at hs
    by_cases hlen : 1 < l.length
    · rw [if_pos hlen] at hs
      cases hsib : (pad l)[i ^^^ 1]? with
      | none => rw [hsib] at hs; cases hs
      | some sibling =>
        rw [hsib] at hs
        rcases List.mem_cons.1 hs with rfl | hs
        · exact hl _ (mem_of_mem_pad (List.mem_of_getElem? hsib))
        · exact ih (forall_up hnode hl) s hs
    · rw [if_neg hlen] at hs
      cases hs

end

/-! ### The nodes of a tree -/

section

variable (node : α → α → α)

/-- The nodes of all levels. -/
def nodes : ℕ → List α → List α
  | 0, l => l
  | n + 1, l => l ++ if 1 < l.length then nodes n (up node l) else []

variable {node}

theorem climb_subset_nodes {n : ℕ} : ∀ {l : List α} {x : α}, x ∈ climb node n l → x ∈ nodes node n l := by
  induction n with
  | zero => intro l x hx; exact hx
  | succ n ih =>
    intro l x hx
    rw [climb] at hx
    rw [nodes]
    split_ifs at hx ⊢
    · exact List.mem_append_right _ (ih hx)
    · exact List.mem_append_left _ hx

/-- A node is a leaf or joins two nodes. -/
theorem mem_nodes {n : ℕ} : ∀ {l : List α} {x : α}, x ∈ nodes node n l →
    x ∈ l ∨ ∃ p ∈ joined node n l, x = node p.1 p.2 := by
  induction n with
  | zero => exact fun h => .inl h
  | succ n ih =>
    intro l x hx
    rw [nodes] at hx
    rw [joined]
    rcases List.mem_append.1 hx with hx | hx
    · exact .inl hx
    · split_ifs at hx ⊢
      · rcases ih hx with hx | ⟨p, hp, rfl⟩
        · obtain ⟨p, hp, rfl⟩ := List.mem_map.1 hx
          exact .inr ⟨p, List.mem_append_left _ hp, rfl⟩
        · exact .inr ⟨p, List.mem_append_right _ hp, rfl⟩
      · cases hx

theorem nodes_of_mem_joined {n : ℕ} : ∀ {l : List α} {p : α × α}, p ∈ joined node n l →
    p.1 ∈ nodes node n l ∧ p.2 ∈ nodes node n l := by
  induction n with
  | zero => intro l p hp; cases hp
  | succ n ih =>
    intro l p hp
    rw [joined] at hp
    rw [nodes]
    split_ifs at hp ⊢
    · rcases List.mem_append.1 hp with hp | hp
      · obtain ⟨h₁, h₂⟩ := mem_of_mem_neighbours hp
        exact ⟨List.mem_append_left _ (mem_of_mem_pad h₁), List.mem_append_left _ (mem_of_mem_pad h₂)⟩
      · exact ⟨List.mem_append_right _ (ih hp).1, List.mem_append_right _ (ih hp).2⟩
    · cases hp

end

/-! ### The full tree -/

/-- The leaves of the full tree of height `k` that the padding of `l` stands for: a node
that is padded brings its leaves along. -/
def full : ℕ → {α : Type u} → List α → List α
  | 0, _, l => l
  | k + 1, _, l => (full k (neighbours (pad l))).flatMap fun p => [p.1, p.2]

theorem pad_map {β : Type*} (f : α → β) (l : List α) : pad (l.map f) = (pad l).map f := by
  rw [pad, pad, List.length_map]
  split_ifs
  · rw [List.map_append, List.getLast?_map]
    cases l.getLast? <;> rfl
  · rfl

theorem neighbours_map {β : Type*} (f : α → β) (l : List α) :
    neighbours (l.map f) = (neighbours l).map (Prod.map f f) := by
  induction l using neighbours.induct with
  | case1 => rfl
  | case2 a => rfl
  | case3 a b l ih => simp [neighbours, ih]

/-- The full tree of images is the image of the full tree. -/
theorem full_map {k : ℕ} : ∀ {α β : Type u} (f : α → β) (l : List α), full k (l.map f) = (full k l).map f := by
  induction k with
  | zero => intro α β f l; rfl
  | succ k ih =>
    intro α β f l
    rw [full, full, pad_map, neighbours_map, ih, List.map_flatMap, List.flatMap_map]
    rfl

theorem mem_pad {l : List α} {x : α} : x ∈ pad l ↔ x ∈ l := by
  refine ⟨mem_of_mem_pad, fun h => ?_⟩
  rw [pad]
  split_ifs
  · exact List.mem_append_left _ h
  · exact h

theorem flatMap_neighbours {l : List α} (h : l.length % 2 = 0) :
    ((neighbours l).flatMap fun p => [p.1, p.2]) = l := by
  induction l using neighbours.induct with
  | case1 => rfl
  | case2 a => simp at h
  | case3 a b l ih =>
    simp only [List.length_cons] at h
    simp [neighbours, ih (by omega)]

/-- It has the same members … -/
theorem mem_full {k : ℕ} : ∀ {α : Type u} {l : List α} {x : α}, x ∈ full k l ↔ x ∈ l := by
  induction k with
  | zero => intro α l x; rfl
  | succ k ih =>
    intro α l x
    have heven : (pad l).length % 2 = 0 := by rw [pad_length]; omega
    have hpairs : x ∈ full (k + 1) l ↔ x ∈ (neighbours (pad l)).flatMap fun p => [p.1, p.2] := by
      rw [full]
      simp only [List.mem_flatMap, ih]
    rw [hpairs, flatMap_neighbours heven, mem_pad]

theorem length_flatMap_pairs (l : List (α × α)) : (l.flatMap fun p => [p.1, p.2]).length = 2 * l.length := by
  induction l with
  | nil => rfl
  | cons p l ih =>
    simp only [List.flatMap_cons, List.length_append, List.length_cons, List.length_nil, ih]
    omega

/-- … and is full. -/
theorem length_full {k : ℕ} : ∀ {α : Type u} {l : List α}, l ≠ [] → Nat.clog 2 l.length = k → (full k l).length = 2 ^ k := by
  induction k with
  | zero =>
    intro α l hne hk
    have hpos := List.length_pos_iff.2 hne
    have hle := (Nat.clog_le_iff_le_pow Nat.one_lt_two).1 hk.le
    rw [pow_zero] at hle
    rw [full, pow_zero]
    omega
  | succ k ih =>
    intro α l hne hk
    have hlen : (neighbours (pad l)).length = (l.length + 1) / 2 := by
      rw [neighbours_length, pad_length]
      omega
    have htwo : 2 ≤ l.length := by
      by_contra hlt
      rw [Nat.clog_of_right_le_one (by omega)] at hk
      cases hk
    rw [Nat.clog_of_two_le Nat.one_lt_two htwo] at hk
    have hnext : Nat.clog 2 (neighbours (pad l)).length = k := by
      rw [hlen]
      exact Nat.succ_injective hk
    have hne' : neighbours (pad l) ≠ [] := List.ne_nil_of_length_pos (by omega)
    rw [full, length_flatMap_pairs, ih hne' hnext, pow_succ]
    omega

section

variable {α : Type u} {node : α → α → α}

/-- As many levels as the tree is high. -/
theorem climb_eq_iterate {n : ℕ} : ∀ {l : List α}, l ≠ [] → l.length ≤ n →
    climb node n l = (up node)^[Nat.clog 2 l.length] l := by
  induction n with
  | zero => intro l hne hl; exact absurd (List.length_eq_zero_iff.1 (by omega)) hne
  | succ n ih =>
    intro l hne hl
    have hpos := List.length_pos_iff.2 hne
    rw [climb]
    split_ifs with h
    · have hup := up_length node l
      rw [ih (List.ne_nil_of_length_pos (by omega)) (by omega), hup, Nat.clog_of_two_le Nat.one_lt_two h,
        Function.iterate_succ_apply]
      rfl
    · rw [Nat.clog_of_right_le_one (by omega)]
      rfl

/-- The pairs of the levels below the top are joined. -/
theorem mem_joined {n : ℕ} : ∀ {l : List α} {j : ℕ} {p : α × α}, l.length ≤ n → j < Nat.clog 2 l.length →
    p ∈ neighbours (pad ((up node)^[j] l)) → p ∈ joined node n l := by
  induction n with
  | zero =>
    intro l j p hl hj
    rw [Nat.clog_of_right_le_one (by omega)] at hj
    omega
  | succ n ih =>
    intro l j p hl hj hp
    have htwo : 2 ≤ l.length := by
      by_contra hlt
      rw [Nat.clog_of_right_le_one (by omega)] at hj
      omega
    rw [joined, if_pos (show 1 < l.length from htwo)]
    cases j with
    | zero => exact List.mem_append_left _ hp
    | succ j =>
      have hup := up_length node l
      rw [Nat.clog_of_two_le Nat.one_lt_two htwo] at hj
      refine List.mem_append_right _ (ih (j := j) (by omega) ?_ hp)
      rw [hup]
      exact Nat.lt_of_succ_lt_succ hj

theorem up_pairs (ps : List (α × α)) : up node (ps.flatMap fun p => [p.1, p.2]) = ps.map fun p => node p.1 p.2 := by
  have hpairs : neighbours (ps.flatMap fun p => [p.1, p.2]) = ps := by
    induction ps with
    | nil => rfl
    | cons p ps ih => simp [neighbours, ih]
  rw [up, pad, length_flatMap_pairs, if_neg (by omega), hpairs]

/-- **The padding is that of the full tree**: both have the same top. -/
theorem iterate_up_full {k : ℕ} : ∀ (l : List α), (up node)^[k] (full k l) = (up node)^[k] l := by
  induction k with
  | zero => intro l; rfl
  | succ k ih =>
    intro l
    rw [Function.iterate_succ_apply, Function.iterate_succ_apply, full, up_pairs, ← full_map]
    exact ih _

theorem map_inj_of_injOn {β : Type*} {f : α → β} {l : List α} : ∀ {l' : List α},
    Set.InjOn f {x | x ∈ l ∨ x ∈ l'} → l.map f = l'.map f → l = l' := by
  induction l with
  | nil => intro l' _ h; exact (List.map_eq_nil_iff.1 h.symm).symm
  | cons x l ih =>
    intro l' hf h
    cases l' with
    | nil => cases h
    | cons y l' =>
      rw [List.map_cons, List.map_cons, List.cons.injEq] at h
      rw [hf (.inl (List.mem_cons_self ..)) (.inr (List.mem_cons_self ..)) h.1, ih (hf.mono fun z hz =>
        hz.imp (List.mem_cons_of_mem _) (List.mem_cons_of_mem _)) h.2]

/-- **The top of `k` levels determines the full tree**, where `node` is injective on the
pairs of these levels. -/
theorem full_inj {k : ℕ} : ∀ {l l' : List α},
    Set.InjOn (fun p : α × α => node p.1 p.2)
      {p | ∃ j < k, p ∈ neighbours (pad ((up node)^[j] l)) ∨ p ∈ neighbours (pad ((up node)^[j] l'))} →
    (up node)^[k] l = (up node)^[k] l' → full k l = full k l' := by
  induction k with
  | zero => exact fun _ h => h
  | succ k ih =>
    intro l l' hinj h
    have hnext : full k (up node l) = full k (up node l') := by
      refine ih (hinj.mono ?_) h
      rintro p ⟨j, hj, hp⟩
      exact ⟨j + 1, Nat.succ_lt_succ hj, hp⟩
    rw [up, up, full_map, full_map] at hnext
    rw [full, full, map_inj_of_injOn (hinj.mono ?_) hnext]
    rintro p hp
    exact ⟨0, Nat.succ_pos k, hp.imp mem_full.1 mem_full.1⟩

end

end Merkle
end ProvableAi
