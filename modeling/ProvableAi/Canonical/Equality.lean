/-
# Equal payloads, equal encodings

`canonical_encode` writes two payloads alike exactly if they are equal as JSON
values.  The equality is `PyVal.Same`, stated on the Python values and by itself:
`None`, booleans, integers and texts are the same where they are equal, so `True`
is not `1`; lists position by position; dicts key by key, in whatever order the
keys were put in.

A `Payload` is a value that `_validate_payload` accepts; no `dict` of it holds a
key twice, because a Python `dict` cannot.
-/

import ProvableAi.Canonical

namespace ProvableAi

namespace PyVal

mutual
/-- No `dict` of the value holds a key twice. -/
def wf : PyVal → Bool
  | .list xs => wfItems xs
  | .dict kvs => decide (kvs.map Prod.fst).Nodup && wfMembers kvs
  | _ => true

/-- `wf` of every item. -/
def wfItems : List PyVal → Bool
  | [] => true
  | x :: xs => x.wf && wfItems xs

/-- `wf` of every member's value. -/
def wfMembers : List (PyKey × PyVal) → Bool
  | [] => true
  | (_, x) :: kvs => x.wf && wfMembers kvs
end

theorem wf_list (xs : List PyVal) : (list xs).wf = true ↔ ∀ x ∈ xs, x.wf = true := by
  rw [wf]
  induction xs with
  | nil => simp [wfItems]
  | cons x xs ih => simp [wfItems, ih]

theorem wf_dict (kvs : List (PyKey × PyVal)) :
    (dict kvs).wf = true ↔ (kvs.map Prod.fst).Nodup ∧ ∀ kv ∈ kvs, kv.2.wf = true := by
  have hmem : wfMembers kvs = true ↔ ∀ kv ∈ kvs, kv.2.wf = true := by
    induction kvs with
    | nil => simp [wfMembers]
    | cons kv kvs ih => obtain ⟨k, x⟩ := kv; simp [wfMembers, ih]
  rw [wf, Bool.and_eq_true, decide_eq_true_iff, hmem]

/-- Two Python values are one JSON value. -/
inductive Same : PyVal → PyVal → Prop
  | none : Same .none .none
  | bool (b : Bool) : Same (.bool b) (.bool b)
  | int (n : ℤ) : Same (.int n) (.int n)
  | str (s : String) : Same (.str s) (.str s)
  | list {xs ys : List PyVal} (hlen : xs.length = ys.length)
      (hitems : ∀ p ∈ xs.zip ys, Same p.1 p.2) : Same (.list xs) (.list ys)
  | dict {kvs lvs : List (PyKey × PyVal)} (hkeys : ∀ k, k ∈ kvs.map Prod.fst ↔ k ∈ lvs.map Prod.fst)
      (hmembers : ∀ k x y, (k, x) ∈ kvs → (k, y) ∈ lvs → Same x y) : Same (.dict kvs) (.dict lvs)

/-! ### The JSON value of a payload -/

theorem toItems?_eq_some {xs : List PyVal} : ∀ {js : List Json},
    toItems? xs = some js ↔ List.Forall₂ (fun x j => x.toJson? = some j) xs js := by
  induction xs with
  | nil => intro js; simp [toItems?, eq_comm]
  | cons x xs ih =>
    intro js
    rw [toItems?]
    constructor
    · intro h
      obtain ⟨j, hj, h⟩ := Option.bind_eq_some_iff.1 h
      obtain ⟨ks, hks, rfl⟩ := Option.map_eq_some_iff.1 h
      exact .cons hj (ih.1 hks)
    · intro h
      cases h with
      | cons hj hks => rw [hj, ih.2 hks]; rfl

theorem toMembers?_eq_some {kvs : List (PyKey × PyVal)} : ∀ {js : List (String × Json)},
    toMembers? kvs = some js ↔
      List.Forall₂ (fun kv j => kv.1 = .str j.1 ∧ kv.2.toJson? = some j.2) kvs js := by
  induction kvs with
  | nil => intro js; simp [toMembers?, eq_comm]
  | cons kv kvs ih =>
    intro js
    obtain ⟨k, x⟩ := kv
    cases k with
    | other r t =>
      rw [toMembers?]
      constructor
      · intro h; cases h
      · intro h
        cases h with
        | cons hj _ => cases hj.1
    | str k =>
      rw [toMembers?]
      constructor
      · intro h
        obtain ⟨j, hj, h⟩ := Option.bind_eq_some_iff.1 h
        obtain ⟨ks, hks, rfl⟩ := Option.map_eq_some_iff.1 h
        exact .cons ⟨rfl, hj⟩ (ih.1 hks)
      · intro h
        cases h with
        | @cons _ j _ _ hj hks =>
          obtain ⟨l, j⟩ := j
          obtain ⟨hl, hj⟩ := hj
          obtain rfl := PyKey.str.inj hl
          rw [hj, ih.2 hks]
          rfl

section Members

variable {kvs : List (PyKey × PyVal)} {js : List (String × Json)}

/-- The members of the JSON object are those of the `dict`. -/
theorem mem_of_toMembers? (h : toMembers? kvs = some js) {k : String} {j : Json} :
    (k, j) ∈ js ↔ ∃ x, (.str k, x) ∈ kvs ∧ x.toJson? = some j := by
  have hf := toMembers?_eq_some.1 h
  clear h
  induction hf with
  | nil => simp
  | @cons kv j' kvs js hj _ ih =>
    obtain ⟨l, x⟩ := kv
    obtain ⟨l', j'⟩ := j'
    obtain ⟨rfl, hx⟩ := hj
    simp only at hx
    simp only [List.mem_cons, Prod.mk.injEq, PyKey.str.injEq, ih]
    constructor
    · rintro (⟨rfl, rfl⟩ | ⟨y, hy, hyj⟩)
      · exact ⟨x, .inl ⟨rfl, rfl⟩, hx⟩
      · exact ⟨y, .inr hy, hyj⟩
    · rintro ⟨y, ⟨rfl, rfl⟩ | hy, hyj⟩
      · exact .inl ⟨rfl, Option.some.inj (hyj.symm.trans hx)⟩
      · exact .inr ⟨y, hy, hyj⟩

theorem keys_of_toMembers? (h : toMembers? kvs = some js) :
    kvs.map Prod.fst = (js.map Prod.fst).map .str := by
  have hf := toMembers?_eq_some.1 h
  clear h
  induction hf with
  | nil => rfl
  | cons hj _ ih => rw [List.map_cons, ih, hj.1]; rfl

theorem toJson?_of_mem (h : toMembers? kvs = some js) {kv : PyKey × PyVal} (hkv : kv ∈ kvs) :
    ∃ j, kv.2.toJson? = some j := by
  have hf := toMembers?_eq_some.1 h
  clear h
  induction hf with
  | nil => simp at hkv
  | cons hj _ ih =>
    rcases List.mem_cons.1 hkv with rfl | hmem
    · exact ⟨_, hj.2⟩
    · exact ih hmem

/-- A key of a `dict` that passed the validation is a text. -/
theorem mem_keys_of_toMembers? (h : toMembers? kvs = some js) {k : PyKey} :
    k ∈ kvs.map Prod.fst ↔ ∃ l, k = .str l ∧ l ∈ js.map Prod.fst := by
  rw [keys_of_toMembers? h, List.mem_map]
  constructor
  · rintro ⟨l, hl, rfl⟩; exact ⟨l, rfl, hl⟩
  · rintro ⟨l, rfl, hl⟩; exact ⟨l, hl, rfl⟩

end Members

/-- The JSON value of a `dict` without repeated keys has none. -/
theorem wf_of_toJson? (v : PyVal) (hv : v.wf = true) : ∀ j, v.toJson? = some j → j.wf = true := by
  induction v using PyVal.induct with
  | list xs ih =>
    intro j hj
    obtain ⟨js, hjs, rfl⟩ := Option.map_eq_some_iff.1 hj
    rw [Json.wf_arr]
    intro j hmem
    obtain ⟨i, hi, rfl⟩ := List.mem_iff_getElem.1 hmem
    have hf := toItems?_eq_some.1 hjs
    have hlen := hf.length_eq
    have hx : xs[i].toJson? = some js[i] := hf.get (by omega) hi
    exact ih xs[i] (List.getElem_mem _) ((wf_list xs).1 hv _ (List.getElem_mem _)) _ hx
  | dict kvs ih =>
    intro j hj
    obtain ⟨js, hjs, rfl⟩ := Option.map_eq_some_iff.1 hj
    obtain ⟨hn, hw⟩ := (wf_dict kvs).1 hv
    rw [Json.wf_obj]
    constructor
    · rw [keys_of_toMembers? hjs] at hn
      exact hn.of_map _
    · rintro ⟨k, j⟩ hmem
      obtain ⟨x, hx, hj⟩ := (mem_of_toMembers? hjs).1 hmem
      exact ih _ hx (hw _ hx) j hj
  | obj t cs => intro j hj; simp [toJson?] at hj
  | _ => intro j hj; obtain rfl := Option.some.inj hj; rfl

/-! ### Same values have one canonical form -/

theorem same_list_iff {xs ys : List PyVal} {js ls : List Json}
    (ih : ∀ x ∈ xs, ∀ y ∈ ys, ∀ j l, x.toJson? = some j → y.toJson? = some l →
      (Same x y ↔ j.canon = l.canon))
    (hjs : toItems? xs = some js) (hls : toItems? ys = some ls) :
    Same (.list xs) (.list ys) ↔ js.map Json.canon = ls.map Json.canon := by
  have hsplit : Same (.list xs) (.list ys) ↔
      xs.length = ys.length ∧ ∀ p ∈ xs.zip ys, Same p.1 p.2 := by
    constructor
    · intro h
      cases h with
      | list hlen hitems => exact ⟨hlen, hitems⟩
    · rintro ⟨hlen, hitems⟩
      exact .list hlen hitems
  rw [hsplit]
  clear hsplit
  have hf := toItems?_eq_some.1 hjs
  have hg := toItems?_eq_some.1 hls
  clear hjs hls
  induction hf generalizing ys ls with
  | nil =>
    cases hg with
    | nil => simp
    | cons _ _ => simp
  | @cons x j xs js hx _ hrec =>
    cases hg with
    | nil => simp
    | @cons y l ys ls hy hrest =>
      have hhead := ih x (by simp) y (by simp) j l hx hy
      have htail := hrec (fun x hx y hy => ih x (List.mem_cons_of_mem _ hx) y (List.mem_cons_of_mem _ hy)) hrest
      simp only [List.length_cons, Nat.add_right_cancel_iff, List.zip_cons_cons, List.forall_mem_cons,
        List.map_cons, List.cons.injEq, hhead, ← htail]
      tauto

/-- Objects without repeated keys have one canonical form exactly if every key
has one value in both, up to the order of members inside it. -/
theorem canon_obj_eq_iff {js ls : List (String × Json)} (hj : (js.map Prod.fst).Nodup)
    (hl : (ls.map Prod.fst).Nodup) :
    (Json.obj js).canon = (Json.obj ls).canon ↔
      ∀ k, (js.lookup k).map Json.canon = (ls.lookup k).map Json.canon := by
  rw [Json.canon_obj, Json.canon_obj, Json.obj.injEq, Json.sortKeys_eq_iff]
  · simp only [Json.lookup_map_snd]
  · simpa [Function.comp_def] using hj
  · simpa [Function.comp_def] using hl

theorem same_dict_iff {kvs lvs : List (PyKey × PyVal)} {js ls : List (String × Json)}
    (ih : ∀ kv ∈ kvs, ∀ lv ∈ lvs, ∀ j l, kv.2.toJson? = some j → lv.2.toJson? = some l →
      (Same kv.2 lv.2 ↔ j.canon = l.canon))
    (hjs : toMembers? kvs = some js) (hls : toMembers? lvs = some ls)
    (hj : (js.map Prod.fst).Nodup) (hl : (ls.map Prod.fst).Nodup) :
    Same (.dict kvs) (.dict lvs) ↔ (Json.obj js).canon = (Json.obj ls).canon := by
  rw [canon_obj_eq_iff hj hl]
  constructor
  · intro h k
    obtain ⟨hkeys, hmembers⟩ : (∀ k, k ∈ kvs.map Prod.fst ↔ k ∈ lvs.map Prod.fst) ∧
        ∀ k x y, (k, x) ∈ kvs → (k, y) ∈ lvs → Same x y := by
      cases h with
      | dict hkeys hmembers => exact ⟨hkeys, hmembers⟩
    have hk : k ∈ js.map Prod.fst ↔ k ∈ ls.map Prod.fst := by
      have := hkeys (.str k)
      rw [mem_keys_of_toMembers? hjs, mem_keys_of_toMembers? hls] at this
      simpa using this
    cases hjk : js.lookup k with
    | none =>
      have hnot : ¬ (js.lookup k).isSome = true := by simp [hjk]
      rw [Json.lookup_isSome_iff, hk, ← Json.lookup_isSome_iff, Option.not_isSome_iff_eq_none] at hnot
      rw [hnot]
    | some j =>
      have hmem := (Json.lookup_eq_some_iff hj).1 hjk
      obtain ⟨⟨_, l⟩, hlmem, rfl⟩ := List.mem_map.1 (hk.1 (List.mem_map_of_mem hmem))
      obtain ⟨x, hx, hxj⟩ := (mem_of_toMembers? hjs).1 hmem
      obtain ⟨y, hy, hyl⟩ := (mem_of_toMembers? hls).1 hlmem
      rw [(Json.lookup_eq_some_iff hl).2 hlmem]
      exact congrArg some ((ih _ hx _ hy j l hxj hyl).1 (hmembers _ x y hx hy))
  · intro h
    have hlookup : ∀ k, k ∈ js.map Prod.fst ↔ k ∈ ls.map Prod.fst := by
      intro k
      have hk := congrArg Option.isSome (h k)
      rw [Option.isSome_map, Option.isSome_map] at hk
      rw [← Json.lookup_isSome_iff, ← Json.lookup_isSome_iff, hk]
    refine .dict (fun k => ?_) fun k x y hx hy => ?_
    · rw [mem_keys_of_toMembers? hjs, mem_keys_of_toMembers? hls]
      simp only [hlookup]
    · obtain ⟨k, rfl, hk⟩ := (mem_keys_of_toMembers? hjs).1 (List.mem_map_of_mem hx)
      obtain ⟨j, hxj⟩ := toJson?_of_mem hjs hx
      obtain ⟨l, hyl⟩ := toJson?_of_mem hls hy
      have hjk := (Json.lookup_eq_some_iff hj).2 ((mem_of_toMembers? hjs).2 ⟨x, hx, hxj⟩)
      have hlk := (Json.lookup_eq_some_iff hl).2 ((mem_of_toMembers? hls).2 ⟨y, hy, hyl⟩)
      have hcanon := h k
      rw [hjk, hlk] at hcanon
      exact (ih _ hx _ hy j l hxj hyl).2 (Option.some.inj hcanon)

theorem same_iff (v : PyVal) (hv : v.wf = true) : ∀ w, w.wf = true → ∀ j l, v.toJson? = some j →
    w.toJson? = some l → (Same v w ↔ j.canon = l.canon) := by
  induction v using PyVal.induct with
  | list xs ih =>
    intro w hw j l hj hl
    obtain ⟨js, hjs, rfl⟩ := Option.map_eq_some_iff.1 hj
    cases w with
    | list ys =>
      obtain ⟨ls, hls, rfl⟩ := Option.map_eq_some_iff.1 hl
      rw [Json.canon_arr, Json.canon_arr, Json.arr.injEq]
      refine same_list_iff (fun x hx y hy => ?_) hjs hls
      exact ih x hx ((wf_list xs).1 hv x hx) y ((wf_list ys).1 hw y hy)
    | dict lvs =>
      obtain ⟨ls, hls, rfl⟩ := Option.map_eq_some_iff.1 hl
      exact ⟨fun h => (by cases h), fun h => by simp [Json.canon_obj] at h⟩
    | obj t cs => simp [toJson?] at hl
    | _ =>
      obtain rfl := Option.some.inj hl
      exact ⟨fun h => (by cases h), fun h => by simp at h⟩
  | dict kvs ih =>
    intro w hw j l hj hl
    obtain ⟨js, hjs, rfl⟩ := Option.map_eq_some_iff.1 hj
    cases w with
    | dict lvs =>
      have hjwf := wf_of_toJson? _ hv _ hj
      have hlwf := wf_of_toJson? _ hw _ hl
      obtain ⟨ls, hls, rfl⟩ := Option.map_eq_some_iff.1 hl
      refine same_dict_iff (fun kv hkv lv hlv => ?_) hjs hls ((Json.wf_obj js).1 hjwf).1
        ((Json.wf_obj ls).1 hlwf).1
      exact ih kv hkv (((wf_dict kvs).1 hv).2 kv hkv) lv.2 (((wf_dict lvs).1 hw).2 lv hlv)
    | list ys =>
      obtain ⟨ls, hls, rfl⟩ := Option.map_eq_some_iff.1 hl
      exact ⟨fun h => (by cases h), fun h => by simp [Json.canon_obj] at h⟩
    | obj t cs => simp [toJson?] at hl
    | _ =>
      obtain rfl := Option.some.inj hl
      exact ⟨fun h => (by cases h), fun h => by simp [Json.canon_obj] at h⟩
  | obj t cs => intro w hw j l hj; simp [toJson?] at hj
  | _ =>
    intro w hw j l hj hl
    obtain rfl := Option.some.inj hj
    cases w with
    | list ys =>
      obtain ⟨ls, hls, rfl⟩ := Option.map_eq_some_iff.1 hl
      exact ⟨fun h => (by cases h), fun h => by simp at h⟩
    | dict lvs =>
      obtain ⟨ls, hls, rfl⟩ := Option.map_eq_some_iff.1 hl
      exact ⟨fun h => (by cases h), fun h => by simp [Json.canon_obj] at h⟩
    | obj t cs => simp [toJson?] at hl
    | _ =>
      obtain rfl := Option.some.inj hl
      simp only [Json.canon_null, Json.canon_bool, Json.canon_int, Json.canon_str, Json.bool.injEq,
        Json.int.injEq, Json.str.injEq, reduceCtorEq]
      constructor <;> intro h <;> cases h <;> constructor

end PyVal

/-- A payload that `_validate_payload` accepts. -/
structure Payload where
  val : PyVal
  wf : val.wf = true
  accepted : validatePayload "root" val = .ok ()

/-- An accepted payload is encoded as the text of its JSON value. -/
theorem Payload.encode (p : Payload) :
    ∃ j, p.val.toJson? = some j ∧ canonicalEncode p.val = .ok (dumps j) := by
  have hsome := (validatePayload_ok_iff p.val "root").1 p.accepted
  obtain ⟨j, hj⟩ := Option.isSome_iff_exists.1 hsome
  refine ⟨j, hj, ?_⟩
  rw [canonicalEncode, p.accepted, hj]

/-- **The encoding is injective and takes no notice of the order of keys.**
Accepted payloads are encoded, and to the same UTF-8 bytes exactly if they are
equal as JSON values. -/
theorem canonicalEncode_eq_iff (p q : Payload) : ∃ s t, canonicalEncode p.val = .ok s ∧
    canonicalEncode q.val = .ok t ∧ (utf8 s = utf8 t ↔ p.val.Same q.val) := by
  obtain ⟨j, hj, hp⟩ := p.encode
  obtain ⟨l, hl, hq⟩ := q.encode
  refine ⟨_, _, hp, hq, ?_⟩
  rw [utf8_inj, PyVal.same_iff p.val p.wf q.val q.wf j l hj hl]
  exact dumps_inj (PyVal.wf_of_toJson? _ p.wf j hj) (PyVal.wf_of_toJson? _ q.wf l hl)

end ProvableAi
