/-
# JSON values

The values `json.loads` builds: `null`, booleans, integers of any size,
floating-point literals, strings of Unicode scalar values, arrays and objects.
An object is the list of its members in insertion order, as a Python `dict`
keeps them.  `Json.wf` says that no object holds a key twice, which a `dict`
cannot; `Json.canon` sorts the members of every object by key, so
`canon a = canon b` is equality of the two values as JSON, where the order of
members does not count.

A float is kept as the literal that stands for it (`FloatLit`): nothing here
computes with one, and two floats are written alike only if they are equal.
-/

import Mathlib.Data.List.Sort
import Mathlib.Data.String.Basic
import Mathlib.Data.List.Lookmap

namespace ProvableAi

/-- The characters a JSON number is written with. -/
def isNumChar (c : Char) : Bool :=
  c.isDigit || c == '-' || c == '+' || c == '.' || c == 'e' || c == 'E'

/-- A natural number in decimal, without leading zeros. -/
def natTok (ds : List Char) : Bool :=
  match ds with
  | [] => false
  | ['0'] => true
  | c :: cs => c.isDigit && c != '0' && cs.all Char.isDigit

/-- The digits of an exponent after its optional sign. -/
def expDigits : List Char → List Char
  | '+' :: r => r
  | '-' :: r => r
  | r => r

/-- An exponent: `e` or `E`, an optional sign, and digits. -/
def expTok : List Char → Bool
  | [] => false
  | e :: r => (e == 'e' || e == 'E') && !(expDigits r).isEmpty && (expDigits r).all Char.isDigit

/-- A number without its minus sign. -/
def unsigned : List Char → List Char
  | '-' :: r => r
  | r => r

/-- A number with a fraction, an exponent, or both: what `json.loads` reads as
a float. -/
def floatTok (t : List Char) : Bool :=
  natTok ((unsigned t).takeWhile Char.isDigit) &&
    match (unsigned t).dropWhile Char.isDigit with
    | '.' :: r => !(r.takeWhile Char.isDigit).isEmpty &&
        ((r.dropWhile Char.isDigit).isEmpty || expTok (r.dropWhile Char.isDigit))
    | r => expTok r

/-- A float, as the literal that stands for it. -/
structure FloatLit where
  text : List Char
  numeric : text.all isNumChar = true
  float : floatTok text = true
  deriving DecidableEq

/-- A JSON value; the members of an object are in insertion order. -/
inductive Json where
  | null
  | bool (b : Bool)
  | int (n : ℤ)
  | float (x : FloatLit)
  | str (s : String)
  | arr (xs : List Json)
  | obj (kvs : List (String × Json))

namespace Json

/-- Induction on a value: an array from its items, an object from the values of
its members. -/
theorem induct {P : Json → Prop} (null : P .null) (bool : ∀ b, P (.bool b)) (int : ∀ n, P (.int n))
    (float : ∀ x, P (.float x)) (str : ∀ s, P (.str s))
    (arr : ∀ xs, (∀ x ∈ xs, P x) → P (.arr xs))
    (obj : ∀ kvs, (∀ kv ∈ kvs, P kv.2) → P (.obj kvs)) (j : Json) : P j := by
  refine @Json.rec P (fun xs => ∀ x ∈ xs, P x) (fun kvs => ∀ kv ∈ kvs, P kv.2) (fun kv => P kv.2)
    null bool int float str (fun xs h => arr xs h) (fun kvs h => obj kvs h)
    (by simp) ?_ (by simp) ?_ (fun _ _ h => h) j
  · intro x xs hx hxs y hy
    rcases List.mem_cons.1 hy with rfl | hy
    · exact hx
    · exact hxs y hy
  · intro kv kvs hkv hkvs y hy
    rcases List.mem_cons.1 hy with rfl | hy
    · exact hkv
    · exact hkvs y hy

/-! ### Equality is decidable -/

mutual
/-- Structural equality. -/
def beq : Json → Json → Bool
  | .null, .null => true
  | .bool a, .bool b => a == b
  | .int a, .int b => a == b
  | .float a, .float b => decide (a = b)
  | .str a, .str b => a == b
  | .arr xs, .arr ys => beqItems xs ys
  | .obj xs, .obj ys => beqMembers xs ys
  | _, _ => false

/-- Structural equality of the items of two arrays. -/
def beqItems : List Json → List Json → Bool
  | [], [] => true
  | x :: xs, y :: ys => beq x y && beqItems xs ys
  | _, _ => false

/-- Structural equality of the members of two objects. -/
def beqMembers : List (String × Json) → List (String × Json) → Bool
  | [], [] => true
  | (k, x) :: xs, (l, y) :: ys => (k == l && beq x y) && beqMembers xs ys
  | _, _ => false
end

theorem beqItems_iff {xs : List Json} (h : ∀ x ∈ xs, ∀ y, x.beq y = true ↔ x = y) :
    ∀ ys, beqItems xs ys = true ↔ xs = ys := by
  induction xs with
  | nil => intro ys; cases ys <;> simp [beqItems]
  | cons x xs ih =>
    intro ys
    cases ys with
    | nil => simp [beqItems]
    | cons y ys =>
      simp [beqItems, h x (by simp), ih (fun z hz => h z (List.mem_cons_of_mem _ hz))]

theorem beqMembers_iff {xs : List (String × Json)}
    (h : ∀ kv ∈ xs, ∀ y, kv.2.beq y = true ↔ kv.2 = y) :
    ∀ ys, beqMembers xs ys = true ↔ xs = ys := by
  induction xs with
  | nil => intro ys; cases ys <;> simp [beqMembers]
  | cons x xs ih =>
    intro ys
    cases ys with
    | nil => simp [beqMembers]
    | cons y ys =>
      obtain ⟨k, x⟩ := x
      obtain ⟨l, y⟩ := y
      have hx := h (k, x) (by simp) y
      simp only at hx
      simp [beqMembers, hx, ih (fun z hz => h z (List.mem_cons_of_mem _ hz))]

theorem beq_iff (a : Json) : ∀ b, a.beq b = true ↔ a = b := by
  induction a using Json.induct with
  | null => intro b; cases b <;> simp [beq]
  | bool x => intro b; cases b <;> simp [beq]
  | int n => intro b; cases b <;> simp [beq]
  | float x => intro b; cases b <;> simp [beq]
  | str s => intro b; cases b <;> simp [beq]
  | arr xs ih => intro b; cases b <;> simp [beq, beqItems_iff ih]
  | obj kvs ih => intro b; cases b <;> simp [beq, beqMembers_iff ih]

instance : DecidableEq Json := fun a b => decidable_of_iff _ (beq_iff a b)

/-! ### Members -/

/-- The value of member `k`, if the value is an object that has one. -/
def get? : Json → String → Option Json
  | .obj kvs, k => kvs.lookup k
  | _, _ => none

@[simp] theorem get?_obj (kvs : List (String × Json)) (k : String) :
    (Json.obj kvs).get? k = kvs.lookup k := rfl

/-! ### Well-formedness: no key twice -/

mutual
/-- No object of the value holds a key twice. -/
def wf : Json → Bool
  | .arr xs => wfItems xs
  | .obj kvs => decide (kvs.map Prod.fst).Nodup && wfMembers kvs
  | _ => true

/-- `wf` of every item. -/
def wfItems : List Json → Bool
  | [] => true
  | x :: xs => x.wf && wfItems xs

/-- `wf` of every member's value. -/
def wfMembers : List (String × Json) → Bool
  | [] => true
  | (_, x) :: xs => x.wf && wfMembers xs
end

@[simp] theorem wf_arr (xs : List Json) : (arr xs).wf = true ↔ ∀ x ∈ xs, x.wf = true := by
  rw [wf]
  induction xs with
  | nil => simp [wfItems]
  | cons x xs ih => simp [wfItems, ih]

@[simp] theorem wf_obj (kvs : List (String × Json)) :
    (obj kvs).wf = true ↔ (kvs.map Prod.fst).Nodup ∧ ∀ kv ∈ kvs, kv.2.wf = true := by
  have h : wfMembers kvs = true ↔ ∀ kv ∈ kvs, kv.2.wf = true := by
    induction kvs with
    | nil => simp [wfMembers]
    | cons x xs ih => obtain ⟨k, x⟩ := x; simp [wfMembers, ih]
  rw [wf, Bool.and_eq_true, decide_eq_true_iff, h]

/-! ### The canonical form: members sorted by key -/

/-- Sort the members of an object by key, as `sort_keys=True` does. -/
def sortKeys {α : Type*} (kvs : List (String × α)) : List (String × α) :=
  kvs.insertionSort fun a b => a.1 ≤ b.1

mutual
/-- The value with the members of every object sorted by key. -/
def canon : Json → Json
  | .arr xs => .arr (canonItems xs)
  | .obj kvs => .obj (sortKeys (canonMembers kvs))
  | j => j

/-- `canon` of every item. -/
def canonItems : List Json → List Json
  | [] => []
  | x :: xs => x.canon :: canonItems xs

/-- `canon` of every member's value. -/
def canonMembers : List (String × Json) → List (String × Json)
  | [] => []
  | (k, x) :: xs => (k, x.canon) :: canonMembers xs
end

@[simp] theorem canonItems_eq (xs : List Json) : canonItems xs = xs.map canon := by
  induction xs with
  | nil => rfl
  | cons x xs ih => simp [canonItems, ih]

@[simp] theorem canonMembers_eq (kvs : List (String × Json)) :
    canonMembers kvs = kvs.map fun kv => (kv.1, kv.2.canon) := by
  induction kvs with
  | nil => rfl
  | cons x xs ih => obtain ⟨k, x⟩ := x; simp [canonMembers, ih]

@[simp] theorem canon_null : canon .null = .null := rfl
@[simp] theorem canon_bool (b : Bool) : canon (.bool b) = .bool b := rfl
@[simp] theorem canon_int (n : ℤ) : canon (.int n) = .int n := rfl
@[simp] theorem canon_float (x : FloatLit) : canon (.float x) = .float x := rfl
@[simp] theorem canon_str (s : String) : canon (.str s) = .str s := rfl

@[simp] theorem canon_arr (xs : List Json) : canon (.arr xs) = .arr (xs.map canon) := by
  rw [canon, canonItems_eq]

theorem canon_obj (kvs : List (String × Json)) :
    canon (.obj kvs) = .obj (sortKeys (kvs.map fun kv => (kv.1, kv.2.canon))) := by
  rw [canon, canonMembers_eq]

section Sorting

variable {α : Type*}

theorem sortKeys_perm (kvs : List (String × α)) : (sortKeys kvs).Perm kvs :=
  List.perm_insertionSort _ _

theorem sortKeys_sorted (kvs : List (String × α)) :
    (sortKeys kvs).Pairwise fun a b => a.1 ≤ b.1 :=
  List.pairwise_insertionSort (fun a b : String × α => a.1 ≤ b.1) kvs

theorem sortKeys_eq_self {kvs : List (String × α)} (h : kvs.Pairwise fun a b => a.1 ≤ b.1) :
    sortKeys kvs = kvs :=
  List.Pairwise.insertionSort_eq (r := fun a b : String × α => a.1 ≤ b.1) h

theorem sortKeys_keys_nodup {kvs : List (String × α)} (h : (kvs.map Prod.fst).Nodup) :
    ((sortKeys kvs).map Prod.fst).Nodup :=
  (((sortKeys_perm kvs).map Prod.fst).nodup_iff).2 h

/-- The members in the order of their keys are the sorted members. -/
theorem sortKeys_eq_of_perm {kvs l : List (String × α)} (hp : kvs.Perm l)
    (hl : (l.map Prod.fst).Pairwise (· < ·)) : sortKeys kvs = l := by
  have hl : l.Pairwise fun a b => a.1 < b.1 := List.pairwise_map.1 hl
  refine List.Perm.eq_of_pairwise ?_ (sortKeys_sorted kvs) (hl.imp fun h => h.le)
    ((sortKeys_perm kvs).trans hp)
  -- two members of one list with one key are one member
  intro a b ha hb hab hba
  have hk : a.1 = b.1 := le_antisymm hab hba
  have hn : (l.map Prod.fst).Nodup := (List.pairwise_map.2 hl).imp fun h => h.ne
  have ha : a ∈ l := ((sortKeys_perm kvs).trans hp).mem_iff.1 ha
  exact List.inj_on_of_nodup_map hn ha hb hk

/-- Changing the values does not change the order. -/
theorem sortKeys_map {β : Type*} (f : α → β) (kvs : List (String × α)) :
    sortKeys (kvs.map fun kv => (kv.1, f kv.2)) = (sortKeys kvs).map fun kv => (kv.1, f kv.2) :=
  (List.map_insertionSort _ _ (fun kv : String × α => (kv.1, f kv.2)) kvs fun _ _ _ _ => Iff.rfl).symm

/-- Where no key occurs twice, looking a key up is membership. -/
theorem lookup_eq_some_iff {kvs : List (String × α)} (h : (kvs.map Prod.fst).Nodup)
    {k : String} {v : α} : kvs.lookup k = some v ↔ (k, v) ∈ kvs := by
  induction kvs with
  | nil => simp
  | cons kv kvs ih =>
    obtain ⟨l, w⟩ := kv
    rw [List.map_cons, List.nodup_cons] at h
    rw [List.lookup_cons]
    by_cases hk : k = l
    · subst hk
      have hv : (k, v) ∉ kvs := fun hm => h.1 (List.mem_map.2 ⟨_, hm, rfl⟩)
      simp [hv, eq_comm]
    · have hb : (k == l) = false := by simpa using hk
      simp [hb, ih h.2, hk]

/-- Sorting the members changes no lookup. -/
theorem lookup_sortKeys {kvs : List (String × α)} (h : (kvs.map Prod.fst).Nodup) (k : String) :
    (sortKeys kvs).lookup k = kvs.lookup k := by
  refine Option.ext fun v => ?_
  rw [lookup_eq_some_iff (sortKeys_keys_nodup h), lookup_eq_some_iff h]
  exact (sortKeys_perm kvs).mem_iff

/-- A key is looked up where it is the key of a member. -/
theorem lookup_isSome_iff {kvs : List (String × α)} {k : String} :
    (kvs.lookup k).isSome = true ↔ k ∈ kvs.map Prod.fst := by
  induction kvs with
  | nil => simp
  | cons kv kvs ih =>
    obtain ⟨l, w⟩ := kv
    rw [List.lookup_cons]
    by_cases hk : k = l
    · simp [hk]
    · have hb : (k == l) = false := by simpa using hk
      simp [hb, ih, hk]

/-- Members without repeated keys are sorted to one list exactly if every key has
one value in both. -/
theorem sortKeys_eq_iff {kvs lvs : List (String × α)} (hk : (kvs.map Prod.fst).Nodup)
    (hl : (lvs.map Prod.fst).Nodup) : sortKeys kvs = sortKeys lvs ↔ ∀ k, kvs.lookup k = lvs.lookup k := by
  constructor
  · intro h k
    rw [← lookup_sortKeys hk, h, lookup_sortKeys hl]
  · intro h
    have hmem : ∀ p, p ∈ kvs ↔ p ∈ lvs := by
      rintro ⟨k, v⟩
      rw [← lookup_eq_some_iff hk, ← lookup_eq_some_iff hl, h]
    have hperm : kvs.Perm lvs := (List.perm_ext_iff_of_nodup (hk.of_map _) (hl.of_map _)).2 hmem
    refine sortKeys_eq_of_perm (hperm.trans (sortKeys_perm lvs).symm) ?_
    have hsorted := List.pairwise_map.2 (sortKeys_sorted lvs)
    have hnodup := sortKeys_keys_nodup hl
    exact hsorted.imp₂ (fun a b hle hne => lt_of_le_of_ne hle hne) hnodup

theorem lookup_map_snd {β : Type*} (f : α → β) (kvs : List (String × α)) (k : String) :
    (kvs.map fun kv => (kv.1, f kv.2)).lookup k = (kvs.lookup k).map f := by
  induction kvs with
  | nil => rfl
  | cons kv kvs ih =>
    obtain ⟨l, w⟩ := kv
    rw [List.map_cons, List.lookup_cons, List.lookup_cons]
    cases k == l <;> simp [ih]

end Sorting

/-- **The canonical form has the members of the value**, each canonical. -/
theorem get?_canon {j : Json} (h : j.wf = true) (k : String) :
    j.canon.get? k = (j.get? k).map canon := by
  cases j with
  | obj kvs =>
    have hn : ((kvs.map fun kv => (kv.1, kv.2.canon)).map Prod.fst).Nodup := by
      simpa [Function.comp_def] using ((wf_obj kvs).1 h).1
    rw [canon_obj, get?_obj, lookup_sortKeys hn, lookup_map_snd, get?_obj]
  | _ => simp [get?]

theorem wf_of_get? {j v : Json} (h : j.wf = true) {k : String} (hv : j.get? k = some v) :
    v.wf = true := by
  cases j with
  | obj kvs =>
    obtain ⟨hn, hw⟩ := (wf_obj kvs).1 h
    exact hw _ ((lookup_eq_some_iff hn).1 hv)
  | _ => simp [get?] at hv

theorem canon_wf (j : Json) (h : j.wf = true) : j.canon.wf = true := by
  induction j using Json.induct with
  | arr xs ih =>
    rw [canon_arr, wf_arr]
    intro x hx
    obtain ⟨y, hy, rfl⟩ := List.mem_map.1 hx
    exact ih y hy ((wf_arr xs).1 h y hy)
  | obj kvs ih =>
    obtain ⟨hn, hw⟩ := (wf_obj kvs).1 h
    rw [canon_obj, wf_obj]
    refine ⟨sortKeys_keys_nodup (by simpa [Function.comp_def] using hn), fun kv hkv => ?_⟩
    obtain ⟨x, hx, rfl⟩ := List.mem_map.1 ((sortKeys_perm _).mem_iff.1 hkv)
    exact ih x hx (hw x hx)
  | _ => exact h

/-- Canonicalising twice is canonicalising once. -/
@[simp] theorem canon_canon (j : Json) : j.canon.canon = j.canon := by
  induction j using Json.induct with
  | arr xs ih =>
    simp only [canon_arr, List.map_map]
    exact congrArg arr (List.map_congr_left ih)
  | obj kvs ih =>
    have hmap : (sortKeys (kvs.map fun kv => (kv.1, kv.2.canon))).map
        (fun kv => (kv.1, kv.2.canon)) = sortKeys (kvs.map fun kv => (kv.1, kv.2.canon)) := by
      refine (List.map_congr_left fun kv hkv => ?_).trans (List.map_id _)
      obtain ⟨x, hx, rfl⟩ := List.mem_map.1 ((sortKeys_perm _).mem_iff.1 hkv)
      exact Prod.ext rfl (ih x hx)
    rw [canon_obj, canon_obj, hmap, sortKeys_eq_self (sortKeys_sorted _)]
  | _ => rfl

end Json
end ProvableAi
