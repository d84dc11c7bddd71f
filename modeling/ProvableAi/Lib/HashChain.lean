/-
# Hash chains

A hash chain is a list of entries, each with a sequence number, the digest of
the entry before it and a digest of its own.  `Linked` says that the numbers
count up from a start and that each entry names the digest before it, the first
one a fixed `genesis`.

The two results the ledgers rest on:

* `Linked.concat` (append): a linked list stays linked under an entry that
  carries the next number and the last digest, and only under such an entry;
* `contents_eq_of_tip_eq` (commitment): where an entry's digest determines its
  content, and the content holds the number and the digest before, the digest
  of the last entry determines the content of all of them, their number
  included.

A chain whose links carry no numbers is a fold (`steps`, `eq_of_foldl_eq`): there
the digest of the last entry determines the contents because none of the digests
is the one the chain starts from.  `Sealed` says that each entry shows the digest
of the contents up to it.

Entries and digests are of any types.
-/

import Mathlib.Data.List.Induction
import Mathlib.Data.Int.Notation
import Mathlib.Tactic.Ring

namespace ProvableAi
namespace HashChain

/-- What a chain reads of an entry: its number, the digest before it, its own. -/
structure Reading (ε δ : Type*) where
  seq : ε → ℤ
  prev : ε → δ
  cur : ε → δ

variable {ε δ : Type*} (R : Reading ε δ)

/-- The entries carry the numbers `n`, `n + 1`, …, each the digest of the one
before it, the first one the digest `h`. -/
def Linked : δ → ℤ → List ε → Prop
  | _, _, [] => True
  | h, n, e :: es => R.prev e = h ∧ R.seq e = n ∧ Linked (R.cur e) (n + 1) es

/-- The digest of the last entry, `h` where there is none. -/
def tip (h : δ) (es : List ε) : δ := (es.getLast?.map R.cur).getD h

@[simp] theorem tip_nil (h : δ) : tip R h [] = h := rfl

@[simp] theorem tip_concat (h : δ) (es : List ε) (e : ε) : tip R h (es ++ [e]) = R.cur e := by
  simp [tip]

@[simp] theorem tip_cons (h : δ) (e : ε) (es : List ε) : tip R h (e :: es) = tip R (R.cur e) es := by
  cases es with
  | nil => rfl
  | cons f es => simp [tip, List.getLast?_eq_some_getLast]

variable {R}

@[simp] theorem linked_nil (h : δ) (n : ℤ) : Linked R h n [] := trivial

theorem linked_cons {h : δ} {n : ℤ} {e : ε} {es : List ε} :
    Linked R h n (e :: es) ↔ R.prev e = h ∧ R.seq e = n ∧ Linked R (R.cur e) (n + 1) es := Iff.rfl

theorem linked_append {h : δ} {n : ℤ} {es fs : List ε} :
    Linked R h n (es ++ fs) ↔ Linked R h n es ∧ Linked R (tip R h es) (n + es.length) fs := by
  induction es generalizing h n with
  | nil => simp
  | cons e es ih =>
    have hn : n + 1 + (es.length : ℤ) = n + ((e :: es).length : ℕ) := by push_cast [List.length_cons]; ring
    rw [List.cons_append, linked_cons, linked_cons, ih, tip_cons, hn]
    tauto

/-- Links carry over to any list of entries that reads the same. -/
theorem linked_map {ζ : Type*} {S : Reading ζ δ} {f : ε → ζ} (hseq : ∀ e, S.seq (f e) = R.seq e)
    (hprev : ∀ e, S.prev (f e) = R.prev e) (hcur : ∀ e, S.cur (f e) = R.cur e) {h : δ} {n : ℤ} {es : List ε} :
    Linked S h n (es.map f) ↔ Linked R h n es := by
  induction es generalizing h n with
  | nil => simp
  | cons e es ih => rw [List.map_cons, linked_cons, linked_cons, ih, hseq, hprev, hcur]

/-- **Appending.**  A list with an entry after it is linked exactly if the list
is and the entry carries the next number and the last digest. -/
theorem Linked.concat {h : δ} {n : ℤ} {es : List ε} {e : ε} :
    Linked R h n (es ++ [e]) ↔
      Linked R h n es ∧ R.prev e = tip R h es ∧ R.seq e = n + es.length := by
  rw [linked_append, linked_cons]
  simp

/-- The entry at position `k` carries number `n + k`. -/
theorem Linked.seq_get {h : δ} {n : ℤ} {es : List ε} (hl : Linked R h n es) {k : ℕ} {e : ε}
    (he : es[k]? = some e) : R.seq e = n + k := by
  induction es generalizing h n k with
  | nil => simp at he
  | cons f es ih =>
    obtain ⟨-, hs, hr⟩ := hl
    cases k with
    | zero => simp at he; subst he; simpa using hs
    | succ k => rw [ih hr (by simpa using he)]; push_cast; ring

/-- The first entry carries the digest the chain starts from. -/
theorem Linked.prev_head {h : δ} {n : ℤ} {es : List ε} (hl : Linked R h n es) {e : ε}
    (he : es[0]? = some e) : R.prev e = h := by
  cases es with
  | nil => simp at he
  | cons f es =>
    obtain rfl : f = e := by simpa using he
    exact hl.1

/-- Every other entry carries the digest of the entry before it. -/
theorem Linked.prev_succ {h : δ} {n : ℤ} {es : List ε} (hl : Linked R h n es) {k : ℕ} {e f : ε}
    (he : es[k]? = some e) (hf : es[k + 1]? = some f) : R.prev f = R.cur e := by
  induction es generalizing h n k with
  | nil => simp at he
  | cons g es ih =>
    cases k with
    | zero =>
      obtain rfl : g = e := by simpa using he
      exact hl.2.2.prev_head (by simpa using hf)
    | succ k => exact ih hl.2.2 (by simpa using he) (by simpa using hf)

/-- The numbers are `n`, `n + 1`, …, without gap or repetition. -/
theorem Linked.map_seq {h : δ} {n : ℤ} {es : List ε} (hl : Linked R h n es) :
    es.map R.seq = (List.range es.length).map fun k : ℕ => n + (k : ℤ) := by
  refine List.ext_getElem? fun k => ?_
  rw [List.getElem?_map, List.getElem?_map]
  by_cases hk : k < es.length
  · rw [List.getElem?_range hk, List.getElem?_eq_getElem hk]
    simp [hl.seq_get (List.getElem?_eq_getElem hk)]
  · have hk := not_lt.1 hk
    simp [hk]

/-- The last number is the length, for a chain that starts at `1`. -/
theorem Linked.seq_last {h : δ} {es : List ε} {e : ε} (hl : Linked R h 1 (es ++ [e])) :
    R.seq e = (es ++ [e]).length := by
  obtain ⟨-, -, hs⟩ := Linked.concat.1 hl
  rw [hs, List.length_append, List.length_singleton]
  push_cast
  ring

/-- A chain without its first number is empty. -/
theorem Linked.eq_nil_of_fresh {h : δ} {n : ℤ} {es : List ε} (hl : Linked R h n es)
    (hfresh : ∀ e ∈ es, R.seq e ≠ n) : es = [] := by
  cases es with
  | nil => rfl
  | cons e es => exact absurd hl.2.1 (hfresh e List.mem_cons_self)

/-- An entry whose number no other one follows is the last. -/
theorem Linked.last_of_fresh {h : δ} {n : ℤ} {es : List ε} (hl : Linked R h n es) {e : ε} (he : e ∈ es)
    (hfresh : ∀ f ∈ es, R.seq f ≠ R.seq e + 1) : R.seq e + 1 = n + es.length ∧ tip R h es = R.cur e := by
  obtain ⟨before, after, rfl⟩ := List.append_of_mem he
  obtain ⟨-, -, hs, hafter⟩ := linked_append.1 hl
  have hnil : after = [] := by
    refine hafter.eq_nil_of_fresh fun f hf => ?_
    have hne := hfresh f (by simp [hf])
    rwa [hs] at hne
  subst hnil
  rw [tip_concat, hs, List.length_append, List.length_singleton]
  push_cast
  exact ⟨by ring, rfl⟩

/-- Only the last entry has no smaller number than any other. -/
theorem Linked.filter_last {h : δ} {n : ℤ} {es : List ε} (hl : Linked R h n es) :
    es.filter (fun e => es.all fun f => decide (R.seq f ≤ R.seq e)) = es.getLast?.toList := by
  obtain rfl | ⟨es, e, rfl⟩ := List.eq_nil_or_concat es
  · rfl
  rw [List.concat_eq_append] at hl ⊢
  obtain ⟨hes, -, hs⟩ := Linked.concat.1 hl
  have hlt : ∀ f ∈ es, R.seq f < R.seq e := by
    intro f hf
    obtain ⟨k, hk⟩ := List.mem_iff_getElem?.1 hf
    obtain ⟨hk', -⟩ := List.getElem?_eq_some_iff.1 hk
    rw [hes.seq_get hk, hs]
    omega
  have hinit : es.filter (fun f => (es ++ [e]).all fun g => decide (R.seq g ≤ R.seq f)) = [] := by
    refine List.filter_eq_nil_iff.2 fun f hf hall => ?_
    have := List.all_eq_true.1 hall e (by simp)
    exact absurd (of_decide_eq_true this) (not_le.2 (hlt f hf))
  have hlast : ((es ++ [e]).all fun g => decide (R.seq g ≤ R.seq e)) = true := by
    refine List.all_eq_true.2 fun g hg => decide_eq_true ?_
    rcases List.mem_append.1 hg with hg | hg
    · exact (hlt g hg).le
    · rw [List.mem_singleton.1 hg]
  have hone : [e].filter (fun f => (es ++ [e]).all fun g => decide (R.seq g ≤ R.seq f)) = [e] :=
    List.filter_eq_self.2 fun f hf => by rw [List.mem_singleton.1 hf]; exact hlast
  rw [List.filter_append, hinit, hone]
  simp

section Commitment

variable {κ : Type*} (content : ε → κ)

/-- Chains of one length with one last digest have one content. -/
theorem contents_eq_of_length_eq {h : δ} {n : ℤ} {es fs : List ε}
    (hprev : ∀ e ∈ es, ∀ f ∈ fs, content e = content f → R.prev e = R.prev f)
    (hinj : ∀ e ∈ es, ∀ f ∈ fs, R.cur e = R.cur f → content e = content f)
    (he : Linked R h n es) (hf : Linked R h n fs) (hlen : es.length = fs.length)
    (htip : tip R h es = tip R h fs) : es.map content = fs.map content := by
  -- from the last entry backwards: equal digests, so equal contents, so equal digests before them
  induction es using List.reverseRecOn generalizing fs with
  | nil => rw [List.length_eq_zero_iff.1 hlen.symm]
  | append_singleton es e ih =>
    obtain rfl | ⟨fs, f, rfl⟩ := List.eq_nil_or_concat fs
    · simp at hlen
    simp only [List.concat_eq_append] at *
    obtain ⟨hes, hpe, -⟩ := Linked.concat.1 he
    obtain ⟨hfs, hpf, -⟩ := Linked.concat.1 hf
    rw [tip_concat, tip_concat] at htip
    have hc : content e = content f := hinj e (by simp) f (by simp) htip
    have hp : tip R h es = tip R h fs := by
      rw [← hpe, ← hpf]
      exact hprev e (by simp) f (by simp) hc
    have hrest := ih (fun a ha b hb => hprev a (by simp [ha]) b (by simp [hb]))
      (fun a ha b hb => hinj a (by simp [ha]) b (by simp [hb])) hes hfs (by simpa using hlen) hp
    simp [hrest, hc]

/-- **Commitment.**  Two non-empty chains from one genesis whose last digests
agree have the same content position by position, and so the same length. -/
theorem contents_eq_of_tip_eq {h : δ} {es fs : List ε}
    (hprev : ∀ e ∈ es, ∀ f ∈ fs, content e = content f → R.prev e = R.prev f)
    (hseq : ∀ e ∈ es, ∀ f ∈ fs, content e = content f → R.seq e = R.seq f)
    (hinj : ∀ e ∈ es, ∀ f ∈ fs, R.cur e = R.cur f → content e = content f)
    (he : Linked R h 1 es) (hf : Linked R h 1 fs) (hne : es ≠ []) (hnf : fs ≠ [])
    (htip : tip R h es = tip R h fs) : es.map content = fs.map content := by
  refine contents_eq_of_length_eq content hprev hinj he hf ?_ htip
  -- the last contents agree, and the last number is the length
  obtain rfl | ⟨es, e, rfl⟩ := List.eq_nil_or_concat es
  · exact absurd rfl hne
  obtain rfl | ⟨fs, f, rfl⟩ := List.eq_nil_or_concat fs
  · exact absurd rfl hnf
  simp only [List.concat_eq_append] at *
  rw [tip_concat, tip_concat] at htip
  have hs := hseq e (by simp) f (by simp) (hinj e (by simp) f (by simp) htip)
  rw [he.seq_last, hf.seq_last] at hs
  exact_mod_cast hs

end Commitment

/-! ### Digests folded along a list

Where a digest is computed from the digest before it and a content, the digest of
a list of contents is a fold. -/

section Fold

variable {κ : Type*} (f : δ → κ → δ)

/-- The inputs of the fold: each content with the digest before it. -/
def steps : δ → List κ → List (δ × κ)
  | _, [] => []
  | h, x :: xs => (h, x) :: steps (f h x) xs

theorem steps_append (h : δ) (xs ys : List κ) :
    steps f h (xs ++ ys) = steps f h xs ++ steps f (xs.foldl f h) ys := by
  induction xs generalizing h with
  | nil => rfl
  | cons x xs ih => rw [List.cons_append, steps, steps, ih, List.cons_append, List.foldl_cons]

theorem mem_of_mem_steps {h : δ} {xs : List κ} {p : δ × κ} (hp : p ∈ steps f h xs) : p.2 ∈ xs := by
  induction xs generalizing h with
  | nil => simp [steps] at hp
  | cons x xs ih =>
    rcases List.mem_cons.1 hp with rfl | hp
    · exact List.mem_cons_self
    · exact List.mem_cons_of_mem _ (ih hp)

/-- What holds of the digest a fold starts from and of every digest it makes
holds of all its inputs. -/
theorem steps_forall {P : δ → Prop} {h : δ} (hh : P h) (hf : ∀ d x, P (f d x)) {xs : List κ} {p : δ × κ}
    (hp : p ∈ steps f h xs) : P p.1 := by
  induction xs generalizing h with
  | nil => simp [steps] at hp
  | cons x xs ih =>
    rcases List.mem_cons.1 hp with rfl | hp
    · exact hh
    · exact ih (hf h x) hp

variable {f}

/-- **Commitment of the fold.**  Where no two inputs of the fold have one digest
and none has the digest the fold starts from, the digest of a list determines it. -/
theorem eq_of_foldl_eq {h : δ} {xs ys : List κ}
    (hinj : ∀ p ∈ steps f h xs, ∀ q ∈ steps f h ys, f p.1 p.2 = f q.1 q.2 → p = q)
    (hxs : ∀ p ∈ steps f h xs, f p.1 p.2 ≠ h) (hys : ∀ p ∈ steps f h ys, f p.1 p.2 ≠ h)
    (heq : xs.foldl f h = ys.foldl f h) : xs = ys := by
  -- from the last content backwards
  induction xs using List.reverseRecOn generalizing ys with
  | nil =>
    obtain rfl | ⟨ys, y, rfl⟩ := List.eq_nil_or_concat ys
    · rfl
    · rw [List.concat_eq_append] at heq hys
      rw [List.foldl_append, List.foldl_cons, List.foldl_nil, List.foldl_nil] at heq
      exact absurd heq.symm (hys (ys.foldl f h, y) (by simp [steps_append, steps]))
  | append_singleton xs x ih =>
    obtain rfl | ⟨ys, y, rfl⟩ := List.eq_nil_or_concat ys
    · rw [List.foldl_append, List.foldl_cons, List.foldl_nil, List.foldl_nil] at heq
      exact absurd heq (hxs (xs.foldl f h, x) (by simp [steps_append, steps]))
    · rw [List.concat_eq_append] at *
      simp only [List.foldl_append, List.foldl_cons, List.foldl_nil] at heq
      simp only [steps_append, List.mem_append] at hinj hxs hys
      have hlast := hinj _ (.inr (List.mem_singleton_self _)) _ (.inr (List.mem_singleton_self _)) heq
      obtain ⟨hfold, rfl⟩ := Prod.mk.inj hlast
      rw [ih (fun p hp q hq => hinj p (.inl hp) q (.inl hq)) (fun p hp => hxs p (.inl hp))
        (fun p hp => hys p (.inl hp)) hfold]

variable (f) (content : ε → κ) (P : ε → δ → Prop)

/-- Every entry agrees with the digest of the contents up to it, `P e d` saying that
`e` agrees with `d`. -/
def Sealed : δ → List ε → Prop
  | _, [] => True
  | h, e :: es => P e (f h (content e)) ∧ Sealed (f h (content e)) es

variable {f content P}

theorem sealed_append {h : δ} {es fs : List ε} :
    Sealed f content P h (es ++ fs) ↔
      Sealed f content P h es ∧ Sealed f content P ((es.map content).foldl f h) fs := by
  induction es generalizing h with
  | nil => simp [Sealed]
  | cons e es ih => rw [List.cons_append, Sealed, Sealed, ih, List.map_cons, List.foldl_cons, and_assoc]

/-- The last entry shows the digest of all contents. -/
theorem Sealed.last {γ : Type*} {show_ : ε → γ} {enc : δ → γ} (hP : ∀ e d, P e d → show_ e = enc d) {h : δ}
    {es : List ε} (hs : Sealed f content P h es) :
    (es.getLast?.map show_).getD (enc h) = enc ((es.map content).foldl f h) := by
  obtain rfl | ⟨es, e, rfl⟩ := List.eq_nil_or_concat es
  · rfl
  · rw [List.concat_eq_append] at hs ⊢
    simp [hP e _ (sealed_append.1 hs).2.1]

/-- **A digest fixes what stands before its entry**: of two sealed lists, each with an entry that agrees with one digest,
the contents up to these entries are the same. -/
theorem Sealed.contents_fixed {h : δ} {before after before' after' : List ε} {e e' : ε}
    (hs : Sealed f content P h (before ++ e :: after)) (hs' : Sealed f content P h (before' ++ e' :: after'))
    (hsame : ∀ d d', P e d → P e' d' → d = d')
    (hinj : ∀ p ∈ steps f h ((before ++ e :: after).map content),
      ∀ q ∈ steps f h ((before' ++ e' :: after').map content), f p.1 p.2 = f q.1 q.2 → p = q)
    (hstart : ∀ p ∈ steps f h ((before ++ e :: after).map content), f p.1 p.2 ≠ h)
    (hstart' : ∀ p ∈ steps f h ((before' ++ e' :: after').map content), f p.1 p.2 ≠ h) :
    (before ++ [e]).map content = (before' ++ [e']).map content := by
  have hsub : ∀ (b a : List ε) (x : ε), ∀ p ∈ steps f h ((b ++ [x]).map content),
      p ∈ steps f h ((b ++ x :: a).map content) := by
    intro b a x p hp
    have hcut : b ++ x :: a = (b ++ [x]) ++ a := by simp
    rw [hcut, List.map_append, steps_append]
    exact List.mem_append_left _ hp
  have hdigest := hsame _ _ (sealed_append.1 hs).2.1 (sealed_append.1 hs').2.1
  refine eq_of_foldl_eq (fun p hp q hq => hinj p (hsub _ _ _ p hp) q (hsub _ _ _ q hq))
    (fun p hp => hstart p (hsub _ _ _ p hp)) (fun p hp => hstart' p (hsub _ _ _ p hp)) ?_
  simpa [List.foldl_append] using hdigest

end Fold

end HashChain
end ProvableAi
