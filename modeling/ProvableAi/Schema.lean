/-
# The proof schema

`schema.py`: the frozen pydantic models of a proof.  A value of one of the
structures below is an instance that passed its validators, so each carries
what they check; `make` is the constructor call with typed arguments, `parse`
is `model_validate` on a JSON document, `dump` is `model_dump(mode="json")`.
A refused value is `none`.

`model_validate` fills in the defaults, ignores members it does not know, and
lowers the case of a hash, a public key and a signature.  What pydantic itself
decides is a parameter (`Pydantic`): which JSON values its lax mode takes for
an `int` (`"7"`, `true`, `7.0`, …), and the text of the error it raises.

`parse_canon` says that parsing does not see the order of members: it commutes
with sorting them.  `parse_dump` is the round trip.
-/

import ProvableAi.Canonical

namespace ProvableAi

/-- What the models leave to pydantic. -/
structure Pydantic where
  /-- An `int` field in lax mode. -/
  laxInt : Json → Option ℤ
  laxInt_int : ∀ n, laxInt (.int n) = some n
  laxInt_arr : ∀ xs, laxInt (.arr xs) = none
  laxInt_obj : ∀ kvs, laxInt (.obj kvs) = none
  /-- The text of the `ValidationError` that `ProofV1` raises for a document. -/
  errorText : Json → String

theorem Pydantic.laxInt_canon (py : Pydantic) (j : Json) : py.laxInt j.canon = py.laxInt j := by
  cases j with
  | arr xs => rw [Json.canon_arr, py.laxInt_arr, py.laxInt_arr]
  | obj kvs => rw [Json.canon_obj, py.laxInt_obj, py.laxInt_obj]
  | _ => rfl

/-! ### Fields of a document -/

namespace Json

/-- A required `str` field. -/
def strField (j : Json) (k : String) : Option String :=
  match j.get? k with
  | some (.str s) => some s
  | _ => none

/-- A field `str | None` with default `None`. -/
def optStrField (j : Json) (k : String) : Option (Option String) :=
  match j.get? k with
  | none | some .null => some none
  | some (.str s) => some (some s)
  | _ => none

/-- A required field that is a model of its own. -/
def modelField {α : Type*} (parse : Json → Option α) (j : Json) (k : String) : Option α :=
  (j.get? k).bind parse

theorem strField_canon {j : Json} (h : j.wf = true) (k : String) : j.canon.strField k = j.strField k := by
  rw [strField, strField, get?_canon h]
  cases j.get? k with
  | none => rfl
  | some v => cases v <;> simp [canon_obj]

theorem optStrField_canon {j : Json} (h : j.wf = true) (k : String) :
    j.canon.optStrField k = j.optStrField k := by
  rw [optStrField, optStrField, get?_canon h]
  cases j.get? k with
  | none => rfl
  | some v => cases v <;> simp [canon_obj]

/-- A model that commutes with sorting does so as a field. -/
theorem modelField_canon {α : Type*} {parse : Json → Option α} {f : α → α} {j : Json} (h : j.wf = true)
    (hp : ∀ v : Json, v.wf = true → parse v.canon = (parse v).map f) (k : String) :
    modelField parse j.canon k = (modelField parse j k).map f := by
  rw [modelField, modelField, get?_canon h]
  cases hv : j.get? k with
  | none => rfl
  | some v => exact hp v (wf_of_get? h hv)

/-- Where parsing commutes with sorting and undoes dumping, the canonical dump
determines the value up to the order of members. -/
theorem eq_of_canon_dump {α : Type*} {parse : Json → Option α} {dump : α → Json} {f : α → α}
    (hp : ∀ v : Json, v.wf = true → parse v.canon = (parse v).map f) (hd : ∀ a, parse (dump a) = some a)
    {a b : α} (ha : (dump a).wf = true) (hb : (dump b).wf = true)
    (h : (dump a).canon = (dump b).canon) : f a = f b := by
  have := congrArg parse h
  rw [hp _ ha, hp _ hb, hd, hd] at this
  exact Option.some.inj this

/-- A dict with string values, as `dict[str, str]` takes it. -/
def strDict : Json → Option (List (String × String))
  | .obj kvs => kvs.mapM fun kv =>
    match kv.2 with
    | .str s => some (kv.1, s)
    | _ => none
  | _ => none

/-- A list of such dicts. -/
def strDicts : Json → Option (List (List (String × String)))
  | .arr xs => xs.mapM strDict
  | _ => none

/-- A dict with string values as a JSON object. -/
def ofStrDict (d : List (String × String)) : Json := .obj (d.map fun kv => (kv.1, .str kv.2))

/-- A dict with string values is taken as it is, and nothing else. -/
theorem strDict_eq_some {j : Json} {d : List (String × String)} :
    j.strDict = some d ↔ j = ofStrDict d := by
  cases j with
  | obj kvs =>
    rw [strDict, ofStrDict, obj.injEq]
    induction kvs generalizing d with
    | nil => cases d <;> simp
    | cons kv kvs ih =>
      obtain ⟨k, v⟩ := kv
      rw [List.mapM_cons]
      cases v with
      | str s =>
        cases d with
        | nil => simp [Option.bind_eq_some_iff]
        | cons e d =>
          obtain ⟨l, t⟩ := e
          simp [Option.bind_eq_some_iff, ih, and_comm]
      | _ => cases d <;> simp
  | _ => simp [strDict, ofStrDict]

theorem ofStrDict_canon (d : List (String × String)) : (ofStrDict d).canon = ofStrDict (sortKeys d) := by
  rw [ofStrDict, canon_obj, ofStrDict, ← sortKeys_map, List.map_map]
  rfl

theorem ofStrDict_of_canon {j : Json} {d : List (String × String)} (h : j.canon = ofStrDict d) :
    ∃ d', j = ofStrDict d' := by
  cases j with
  | obj kvs =>
    rw [canon_obj, ofStrDict, obj.injEq] at h
    have hstr : ∀ kv ∈ kvs, ∃ s, kv.2 = .str s := by
      intro kv hkv
      have hm : (kv.1, kv.2.canon) ∈ d.map fun kv => (kv.1, Json.str kv.2) := by
        rw [← h, (sortKeys_perm _).mem_iff]
        exact List.mem_map.2 ⟨kv, hkv, rfl⟩
      obtain ⟨e, -, he⟩ := List.mem_map.1 hm
      have hs : kv.2.canon = .str e.2 := (congrArg Prod.snd he).symm
      cases hv : kv.2 with
      | str s => exact ⟨s, rfl⟩
      | _ => simp [hv, canon_obj] at hs
    clear h
    induction kvs with
    | nil => exact ⟨[], rfl⟩
    | cons kv kvs ih =>
      obtain ⟨d', hd⟩ := ih fun x hx => hstr x (List.mem_cons_of_mem _ hx)
      obtain ⟨s, hs⟩ := hstr kv (by simp)
      rw [ofStrDict, obj.injEq] at hd
      exact ⟨(kv.1, s) :: d', by simp [ofStrDict, hd, ← hs]⟩
  | _ => simp [ofStrDict] at h

theorem strDict_canon (j : Json) : j.canon.strDict = j.strDict.map sortKeys := by
  cases hd : j.strDict with
  | some d =>
    rw [strDict_eq_some.1 hd, ofStrDict_canon]
    exact strDict_eq_some.2 rfl
  | none =>
    refine Option.eq_none_iff_forall_ne_some.2 fun d h => ?_
    obtain ⟨d', hd'⟩ := ofStrDict_of_canon (strDict_eq_some.1 h)
    rw [strDict_eq_some.2 hd'] at hd
    cases hd

theorem strDicts_canon (j : Json) : j.canon.strDicts = j.strDicts.map fun ds => ds.map sortKeys := by
  cases j with
  | arr xs =>
    rw [canon_arr, strDicts, strDicts]
    induction xs with
    | nil => rfl
    | cons x xs ih =>
      rw [List.map_cons, List.mapM_cons, List.mapM_cons, ih, strDict_canon]
      cases x.strDict <;> cases xs.mapM strDict <;> rfl
  | obj kvs => rw [canon_obj]; rfl
  | _ => rfl

theorem ofStrDict_wf {d : List (String × String)} :
    (ofStrDict d).wf = true ↔ (d.map Prod.fst).Nodup := by
  rw [ofStrDict, wf_obj, List.map_map]
  refine ⟨fun h => h.1, fun h => ⟨h, fun kv hkv => ?_⟩⟩
  obtain ⟨e, -, rfl⟩ := List.mem_map.1 hkv
  rfl

theorem strDicts_nodup {j : Json} {ds : List (List (String × String))} (h : j.wf = true)
    (hd : j.strDicts = some ds) : ∀ d ∈ ds, (d.map Prod.fst).Nodup := by
  cases j with
  | arr xs =>
    rw [wf_arr] at h
    rw [strDicts] at hd
    induction xs generalizing ds with
    | nil => simp [← Option.some.inj hd]
    | cons x xs ih =>
      rw [List.mapM_cons] at hd
      obtain ⟨d, hx, hd⟩ := Option.bind_eq_some_iff.1 hd
      obtain ⟨es, hxs, hd⟩ := Option.bind_eq_some_iff.1 hd
      obtain rfl := Option.some.inj hd
      refine List.forall_mem_cons.2 ⟨?_, ih (fun y hy => h y (List.mem_cons_of_mem _ hy)) hxs⟩
      rw [← ofStrDict_wf, ← strDict_eq_some.1 hx]
      exact h x (by simp)
  | _ => cases hd

/-- The round trip of a list of dicts with string values. -/
theorem strDicts_ofStrDict (ds : List (List (String × String))) :
    strDicts (.arr (ds.map ofStrDict)) = some ds := by
  rw [strDicts]
  induction ds with
  | nil => rfl
  | cons d ds ih => rw [List.map_cons, List.mapM_cons, ih, strDict_eq_some.2 rfl]; rfl

end Json

/-! ### Hexadecimal fields -/

/-- A field checked to be `n` characters that `int(v, 16)` takes, lowered. -/
structure HexText (n : ℕ) where
  text : String
  text_length : text.length = n
  text_hex : intBase16 text = true
  text_lower : lower text = text
  deriving DecidableEq

namespace HexText

/-- `_validate_hash_field` and its copies in `DecisionContext` and `Signature`,
after `min_length` and `max_length`. -/
def make (n : ℕ) (v : String) : Option (HexText n) :=
  if h : v.length = n ∧ intBase16 v = true then
    some ⟨lower v, (lower_length v).trans h.1, (intBase16_lower_eq v).trans h.2, lower_lower v⟩
  else none

theorem make_text {n : ℕ} (t : HexText n) : make n t.text = some t := by
  obtain ⟨v, hl, hh, hv⟩ := t
  simp only [make, hl, hh, hv, and_self, dite_true]

theorem text_inj {n : ℕ} {s t : HexText n} (h : s.text = t.text) : s = t := by
  obtain ⟨v, _, _, _⟩ := s
  obtain ⟨w, _, _, _⟩ := t
  obtain rfl : v = w := h
  rfl

/-- The hexadecimal text of `n` bytes, a field of `2 n` characters. -/
def ofBytes {n : ℕ} (bs : Bytes) (hb : bs.length = n) (hn : 0 < n) : HexText (2 * n) :=
  ⟨toHex bs, by rw [toHex_length, hb], intBase16_toHex (by rintro rfl; simp at hb; omega),
    lower_toHex bs⟩

theorem make_toHex {n : ℕ} {bs : Bytes} (hb : 2 * bs.length = n) (hn : 0 < n) :
    ∃ t : HexText n, make n (toHex bs) = some t ∧ t.text = toHex bs := by
  have hne : bs ≠ [] := by rintro rfl; simp at hb; omega
  have hl : (toHex bs).length = n := by rw [toHex_length, hb]
  have hh := intBase16_toHex hne
  have hw := lower_toHex bs
  generalize toHex bs = s at hl hh hw ⊢
  exact ⟨⟨s, hl, hh, hw⟩, make_text ⟨s, hl, hh, hw⟩, rfl⟩

/-- A digest. -/
def sha256 (s : String) : HexText 64 :=
  ⟨sha256Hex s, sha256Hex_length s, intBase16_sha256Hex s, lower_sha256Hex s⟩

end HexText

/-! ### Decision -/

/-- `Decision`. -/
structure Decision where
  fromState : String
  toState : String
  fromState_ne : fromState ≠ ""
  toState_ne : toState ≠ ""
  deriving DecidableEq

namespace Decision

/-- `Decision(from_state=…, to_state=…)`. -/
def make (fromState toState : String) : Option Decision :=
  if h : fromState ≠ "" ∧ toState ≠ "" then some ⟨fromState, toState, h.1, h.2⟩ else none

theorem make_eq_some {f t : String} {d : Decision} : make f t = some d ↔ d.fromState = f ∧ d.toState = t := by
  constructor
  · intro h
    rw [make] at h
    split at h
    · obtain rfl := Option.some.inj h
      exact ⟨rfl, rfl⟩
    · cases h
  · rintro ⟨rfl, rfl⟩
    exact dif_pos ⟨d.fromState_ne, d.toState_ne⟩

/-- `Decision.model_validate`. -/
def parse (j : Json) : Option Decision := do
  let fromState ← j.strField "from_state"
  let toState ← j.strField "to_state"
  make fromState toState

/-- `model_dump(mode="json")`. -/
def dump (d : Decision) : Json := .obj [("from_state", .str d.fromState), ("to_state", .str d.toState)]

theorem parse_canon (j : Json) (h : j.wf = true) : parse j.canon = (parse j).map id := by
  rw [Option.map_id, id, parse, parse, Json.strField_canon h, Json.strField_canon h]

theorem parse_dump (d : Decision) : parse d.dump = some d := by
  have h : make d.fromState d.toState = some d := make_eq_some.2 ⟨rfl, rfl⟩
  exact h

theorem dump_wf (d : Decision) : d.dump.wf = true := by
  simp only [dump, Json.wf_obj]
  simp [Json.wf]

theorem dump_floatFree (d : Decision) : d.dump.floatFree = true := rfl

end Decision

/-! ### Decision context -/

/-- `DecisionContext`. -/
structure DecisionContext where
  reasonCode : String
  policyRule : String
  modelVersion : String
  inputsHash : HexText 64
  featureContributions : List (List (String × String))
  thresholdUsed : Option String
  metadata : List (String × Json)
  reasonCode_ne : reasonCode ≠ ""
  policyRule_ne : policyRule ≠ ""
  modelVersion_ne : modelVersion ≠ ""
  deriving DecidableEq

/-- A `str | None` as JSON. -/
def Json.ofOptStr : Option String → Json
  | none => .null
  | some s => .str s

namespace DecisionContext

/-- `DecisionContext(reason_code=…, …)`. -/
def make (reasonCode policyRule modelVersion inputsHash : String)
    (featureContributions : List (List (String × String))) (thresholdUsed : Option String)
    (metadata : List (String × Json)) : Option DecisionContext :=
  if h : reasonCode ≠ "" ∧ policyRule ≠ "" ∧ modelVersion ≠ "" then
    (HexText.make 64 inputsHash).map fun inputsHash =>
      ⟨reasonCode, policyRule, modelVersion, inputsHash, featureContributions, thresholdUsed, metadata,
        h.1, h.2.1, h.2.2⟩
  else none

theorem make_eq_some {r p m i : String} {fs : List (List (String × String))} {t : Option String}
    {md : List (String × Json)} {c : DecisionContext} :
    make r p m i fs t md = some c ↔ c.reasonCode = r ∧ c.policyRule = p ∧ c.modelVersion = m ∧
      HexText.make 64 i = some c.inputsHash ∧ c.featureContributions = fs ∧ c.thresholdUsed = t ∧
      c.metadata = md := by
  constructor
  · intro h
    rw [make] at h
    split at h
    · obtain ⟨x, hx, rfl⟩ := Option.map_eq_some_iff.1 h
      exact ⟨rfl, rfl, rfl, hx, rfl, rfl, rfl⟩
    · cases h
  · rintro ⟨rfl, rfl, rfl, hi, rfl, rfl, rfl⟩
    rw [make, dif_pos ⟨c.reasonCode_ne, c.policyRule_ne, c.modelVersion_ne⟩, hi]
    rfl

/-- The field `feature_contributions`, by default empty. -/
def featuresField (j : Json) : Option (List (List (String × String))) :=
  match j.get? "feature_contributions" with
  | none => some []
  | some v => v.strDicts

/-- The field `metadata`, by default empty. -/
def metadataField (j : Json) : Option (List (String × Json)) :=
  match j.get? "metadata" with
  | none => some []
  | some (.obj kvs) => some kvs
  | some _ => none

/-- `DecisionContext.model_validate`.  The validator of `threshold_used` that
runs before refuses what is neither a `str` nor `None`. -/
def parse (j : Json) : Option DecisionContext := do
  let reasonCode ← j.strField "reason_code"
  let policyRule ← j.strField "policy_rule"
  let modelVersion ← j.strField "model_version"
  let inputsHash ← j.strField "inputs_hash"
  let featureContributions ← featuresField j
  let thresholdUsed ← j.optStrField "threshold_used"
  let metadata ← metadataField j
  make reasonCode policyRule modelVersion inputsHash featureContributions thresholdUsed metadata

/-- `model_dump(mode="json")`. -/
def dump (c : DecisionContext) : Json :=
  .obj [("reason_code", .str c.reasonCode), ("policy_rule", .str c.policyRule),
    ("model_version", .str c.modelVersion), ("inputs_hash", .str c.inputsHash.text),
    ("feature_contributions", .arr (c.featureContributions.map Json.ofStrDict)),
    ("threshold_used", .ofOptStr c.thresholdUsed), ("metadata", .obj c.metadata)]

/-- The context with the members of its dicts sorted. -/
def canon (c : DecisionContext) : DecisionContext :=
  { c with
    featureContributions := c.featureContributions.map Json.sortKeys
    metadata := Json.sortKeys (c.metadata.map fun kv => (kv.1, kv.2.canon)) }

theorem featuresField_canon {j : Json} (h : j.wf = true) :
    featuresField j.canon = (featuresField j).map fun ds => ds.map Json.sortKeys := by
  rw [featuresField, featuresField, Json.get?_canon h]
  cases j.get? "feature_contributions" with
  | none => rfl
  | some v => exact v.strDicts_canon

theorem metadataField_canon {j : Json} (h : j.wf = true) :
    metadataField j.canon =
      (metadataField j).map fun kvs => Json.sortKeys (kvs.map fun kv => (kv.1, kv.2.canon)) := by
  rw [metadataField, metadataField, Json.get?_canon h]
  cases j.get? "metadata" with
  | none => rfl
  | some v => cases v <;> simp [Json.canon_obj]

theorem make_canon (r p m i : String) (fs : List (List (String × String))) (t : Option String)
    (md : List (String × Json)) :
    make r p m i (fs.map Json.sortKeys) t (Json.sortKeys (md.map fun kv => (kv.1, kv.2.canon))) =
      (make r p m i fs t md).map canon := by
  rw [make, make]
  split
  · cases HexText.make 64 i <;> rfl
  · rfl

theorem parse_canon (j : Json) (h : j.wf = true) : parse j.canon = (parse j).map canon := by
  rw [parse, parse]
  simp only [Json.strField_canon h, Json.optStrField_canon h, featuresField_canon h,
    metadataField_canon h]
  simp only [Option.bind_eq_bind, Option.map_bind, Option.bind_map, Function.comp_def, make_canon]

theorem parse_dump (c : DecisionContext) : parse c.dump = some c := by
  have hf : featuresField c.dump = some c.featureContributions := Json.strDicts_ofStrDict _
  have ht : c.dump.optStrField "threshold_used" = some c.thresholdUsed := by
    have hg : c.dump.get? "threshold_used" = some (.ofOptStr c.thresholdUsed) := rfl
    rw [Json.optStrField, hg]
    cases c.thresholdUsed <;> rfl
  have hm : make c.reasonCode c.policyRule c.modelVersion c.inputsHash.text c.featureContributions
      c.thresholdUsed c.metadata = some c :=
    make_eq_some.2 ⟨rfl, rfl, rfl, c.inputsHash.make_text, rfl, rfl, rfl⟩
  rw [parse, hf, ht]
  exact hm

theorem dump_wf {c : DecisionContext} : c.dump.wf = true ↔
    (∀ d ∈ c.featureContributions, (d.map Prod.fst).Nodup) ∧ (Json.obj c.metadata).wf = true := by
  have ht : (Json.ofOptStr c.thresholdUsed).wf = true := by cases c.thresholdUsed <;> rfl
  have hf : (Json.arr (c.featureContributions.map Json.ofStrDict)).wf = true ↔
      ∀ d ∈ c.featureContributions, (d.map Prod.fst).Nodup := by
    simp only [Json.wf_arr, List.forall_mem_map, Json.ofStrDict_wf]
  rw [dump, Json.wf_obj]
  simp only [List.forall_mem_cons, hf, ht]
  simp [Json.wf]

theorem dump_floatFree {c : DecisionContext} :
    c.dump.floatFree = true ↔ (Json.obj c.metadata).floatFree = true := by
  have hd : ∀ d : List (String × String), (Json.ofStrDict d).floatFree = true := by
    intro d
    rw [Json.ofStrDict, Json.floatFree_obj]
    intro kv hkv
    obtain ⟨e, -, rfl⟩ := List.mem_map.1 hkv
    rfl
  have ht : (Json.ofOptStr c.thresholdUsed).floatFree = true := by cases c.thresholdUsed <;> rfl
  have hf : (Json.arr (c.featureContributions.map Json.ofStrDict)).floatFree = true := by
    rw [Json.floatFree_arr, List.forall_mem_map]
    exact fun d _ => hd d
  rw [dump, Json.floatFree_obj]
  simp only [List.forall_mem_cons, hf, ht]
  simp [Json.floatFree]

/-- A document without repeated keys parses to a context without them. -/
theorem dump_wf_of_parse {j : Json} {c : DecisionContext} (h : j.wf = true) (hp : parse j = some c) :
    c.dump.wf = true := by
  have hfield : featuresField j = some c.featureContributions ∧ metadataField j = some c.metadata := by
    simp only [parse, Option.bind_eq_bind, Option.bind_eq_some_iff] at hp
    obtain ⟨r, -, p, -, m, -, i, -, fs, hfs, t, -, md, hmd, hm⟩ := hp
    obtain ⟨-, -, -, -, rfl, -, rfl⟩ := make_eq_some.1 hm
    exact ⟨hfs, hmd⟩
  refine dump_wf.2 ⟨?_, ?_⟩
  · have hf := hfield.1
    rw [featuresField] at hf
    cases hv : j.get? "feature_contributions" with
    | none =>
      rw [hv] at hf
      simp [← Option.some.inj hf]
    | some v =>
      rw [hv] at hf
      exact Json.strDicts_nodup (Json.wf_of_get? h hv) hf
  · have hm := hfield.2
    rw [metadataField] at hm
    cases hv : j.get? "metadata" with
    | none =>
      rw [hv] at hm
      rw [← Option.some.inj hm]
      rfl
    | some v =>
      rw [hv] at hm
      cases v with
      | obj kvs =>
        rw [← Option.some.inj hm]
        exact Json.wf_of_get? h hv
      | _ => cases hm

theorem dump_canon (c : DecisionContext) : c.canon.dump.canon = c.dump.canon := by
  have hf : (Json.arr (c.canon.featureContributions.map Json.ofStrDict)).canon =
      (Json.arr (c.featureContributions.map Json.ofStrDict)).canon := by
    rw [Json.canon_arr, Json.canon_arr, canon, List.map_map, List.map_map, List.map_map]
    refine congrArg Json.arr (List.map_congr_left fun d _ => ?_)
    simp only [Function.comp_apply, Json.ofStrDict_canon, Json.sortKeys_eq_self (Json.sortKeys_sorted d)]
  have hm : (Json.obj c.canon.metadata).canon = (Json.obj c.metadata).canon := by
    rw [canon, ← Json.canon_obj, Json.canon_canon]
  rw [dump, dump, Json.canon_obj, Json.canon_obj]
  simp only [List.map_cons, List.map_nil, hf, hm]
  rfl

end DecisionContext

/-! ### Governance -/

/-- `Governance`. -/
structure Governance where
  modelVersion : String
  agentVersion : String
  policyVersion : String
  modelVersion_ne : modelVersion ≠ ""
  agentVersion_ne : agentVersion ≠ ""
  policyVersion_ne : policyVersion ≠ ""
  deriving DecidableEq

namespace Governance

/-- `Governance(model_version=…, agent_version=…, policy_version=…)`. -/
def make (modelVersion agentVersion policyVersion : String) : Option Governance :=
  if h : modelVersion ≠ "" ∧ agentVersion ≠ "" ∧ policyVersion ≠ "" then
    some ⟨modelVersion, agentVersion, policyVersion, h.1, h.2.1, h.2.2⟩
  else none

theorem make_eq_some {m a p : String} {g : Governance} :
    make m a p = some g ↔ g.modelVersion = m ∧ g.agentVersion = a ∧ g.policyVersion = p := by
  constructor
  · intro h
    rw [make] at h
    split at h
    · obtain rfl := Option.some.inj h
      exact ⟨rfl, rfl, rfl⟩
    · cases h
  · rintro ⟨rfl, rfl, rfl⟩
    exact dif_pos ⟨g.modelVersion_ne, g.agentVersion_ne, g.policyVersion_ne⟩

/-- `Governance.model_validate`. -/
def parse (j : Json) : Option Governance := do
  let modelVersion ← j.strField "model_version"
  let agentVersion ← j.strField "agent_version"
  let policyVersion ← j.strField "policy_version"
  make modelVersion agentVersion policyVersion

/-- `model_dump(mode="json")`. -/
def dump (g : Governance) : Json :=
  .obj [("model_version", .str g.modelVersion), ("agent_version", .str g.agentVersion),
    ("policy_version", .str g.policyVersion)]

theorem parse_canon (j : Json) (h : j.wf = true) : parse j.canon = (parse j).map id := by
  simp only [Option.map_id, id, parse, Json.strField_canon h]

theorem parse_dump (g : Governance) : parse g.dump = some g := by
  have h : make g.modelVersion g.agentVersion g.policyVersion = some g := make_eq_some.2 ⟨rfl, rfl, rfl⟩
  exact h

theorem dump_wf (g : Governance) : g.dump.wf = true := by
  simp only [dump, Json.wf_obj]
  simp [Json.wf]

theorem dump_floatFree (g : Governance) : g.dump.floatFree = true := rfl

end Governance

/-! ### Determinism -/

/-- `DeterminismMode`. -/
inductive DeterminismMode where
  | strictDeterministic
  | replayWithSeed
  | replayWithRecordedIo
  deriving DecidableEq

namespace DeterminismMode

/-- `mode.value`. -/
def value : DeterminismMode → String
  | strictDeterministic => "strict_deterministic"
  | replayWithSeed => "replay_with_seed"
  | replayWithRecordedIo => "replay_with_recorded_io"

/-- The member with a value. -/
def ofValue (s : String) : Option DeterminismMode :=
  if s = "strict_deterministic" then some strictDeterministic
  else if s = "replay_with_seed" then some replayWithSeed
  else if s = "replay_with_recorded_io" then some replayWithRecordedIo
  else none

theorem ofValue_value (m : DeterminismMode) : ofValue m.value = some m := by cases m <;> decide

end DeterminismMode

/-- What `Determinism.validate_mode_fields` asks for. -/
def modeFields (mode : DeterminismMode) (seed externalCallsHash : Option String) : Bool :=
  match mode with
  | .strictDeterministic => true
  | .replayWithSeed => seed.isSome
  | .replayWithRecordedIo => externalCallsHash.any fun h => h.length == 64

/-- `Determinism`. -/
structure Determinism where
  mode : DeterminismMode
  seed : Option String
  externalCallsHash : Option String
  fields : modeFields mode seed externalCallsHash = true
  deriving DecidableEq

namespace Determinism

/-- `Determinism(mode=…, seed=…, external_calls_hash=…)`. -/
def make (mode : DeterminismMode) (seed externalCallsHash : Option String) : Option Determinism :=
  if h : modeFields mode seed externalCallsHash = true then some ⟨mode, seed, externalCallsHash, h⟩
  else none

theorem make_eq_some {m : DeterminismMode} {s e : Option String} {t : Determinism} :
    make m s e = some t ↔ t.mode = m ∧ t.seed = s ∧ t.externalCallsHash = e := by
  constructor
  · intro h
    rw [make] at h
    split at h
    · obtain rfl := Option.some.inj h
      exact ⟨rfl, rfl, rfl⟩
    · cases h
  · rintro ⟨rfl, rfl, rfl⟩
    exact dif_pos t.fields

/-- `Determinism.model_validate`. -/
def parse (j : Json) : Option Determinism := do
  let value ← j.strField "mode"
  let mode ← DeterminismMode.ofValue value
  let seed ← j.optStrField "seed"
  let externalCallsHash ← j.optStrField "external_calls_hash"
  make mode seed externalCallsHash

/-- `model_dump(mode="json")`. -/
def dump (t : Determinism) : Json :=
  .obj [("mode", .str t.mode.value), ("seed", .ofOptStr t.seed),
    ("external_calls_hash", .ofOptStr t.externalCallsHash)]

theorem parse_canon (j : Json) (h : j.wf = true) : parse j.canon = (parse j).map id := by
  simp only [Option.map_id, id, parse, Json.strField_canon h, Json.optStrField_canon h]

theorem parse_dump (t : Determinism) : parse t.dump = some t := by
  have hs : t.dump.optStrField "seed" = some t.seed := by
    have hg : t.dump.get? "seed" = some (.ofOptStr t.seed) := rfl
    rw [Json.optStrField, hg]
    cases t.seed <;> rfl
  have he : t.dump.optStrField "external_calls_hash" = some t.externalCallsHash := by
    have hg : t.dump.get? "external_calls_hash" = some (.ofOptStr t.externalCallsHash) := rfl
    rw [Json.optStrField, hg]
    cases t.externalCallsHash <;> rfl
  have hm : t.dump.strField "mode" = some t.mode.value := rfl
  rw [parse, hm, hs, he]
  simp only [Option.bind_eq_bind, Option.bind_some, DeterminismMode.ofValue_value, make, t.fields, dite_true]

theorem dump_wf (t : Determinism) : t.dump.wf = true := by
  have h : ∀ o, (Json.ofOptStr o).wf = true := by intro o; cases o <;> rfl
  rw [dump, Json.wf_obj]
  simp only [List.forall_mem_cons, h]
  simp [Json.wf]

theorem dump_floatFree (t : Determinism) : t.dump.floatFree = true := by
  have h : ∀ o, (Json.ofOptStr o).floatFree = true := by intro o; cases o <;> rfl
  rw [dump, Json.floatFree_obj]
  simp only [List.forall_mem_cons, h]
  simp [Json.floatFree]

end Determinism

/-! ### Ledger block -/

/-- `v.endswith("Z")`. -/
def endsWithZ (v : String) : Bool := v.toList.getLast? == some 'Z'

/-- `Ledger`. -/
structure Ledger where
  sequenceId : ℤ
  previousHash : HexText 64
  currentHash : HexText 64
  timestamp : String
  sequenceId_pos : 1 ≤ sequenceId
  timestamp_length : 20 ≤ timestamp.length
  timestamp_utc : endsWithZ timestamp = true
  deriving DecidableEq

namespace Ledger

/-- `Ledger(sequence_id=…, previous_hash=…, current_hash=…, timestamp=…)`. -/
def make (sequenceId : ℤ) (previousHash currentHash timestamp : String) : Option Ledger := do
  let previousHash ← HexText.make 64 previousHash
  let currentHash ← HexText.make 64 currentHash
  if h : 1 ≤ sequenceId ∧ 20 ≤ timestamp.length ∧ endsWithZ timestamp = true then
    some ⟨sequenceId, previousHash, currentHash, timestamp, h.1, h.2.1, h.2.2⟩
  else none

theorem make_eq_some {n : ℤ} {p c t : String} {l : Ledger} :
    make n p c t = some l ↔ l.sequenceId = n ∧ HexText.make 64 p = some l.previousHash ∧
      HexText.make 64 c = some l.currentHash ∧ l.timestamp = t := by
  simp only [make, Option.bind_eq_bind, Option.bind_eq_some_iff]
  constructor
  · rintro ⟨prev, hp, cur, hc, h⟩
    split at h
    · obtain rfl := Option.some.inj h
      exact ⟨rfl, hp, hc, rfl⟩
    · cases h
  · rintro ⟨rfl, hp, hc, rfl⟩
    exact ⟨_, hp, _, hc, dif_pos ⟨l.sequenceId_pos, l.timestamp_length, l.timestamp_utc⟩⟩

/-- `Ledger.model_validate`. -/
def parse (py : Pydantic) (j : Json) : Option Ledger := do
  let sequenceId ← (j.get? "sequence_id").bind py.laxInt
  let previousHash ← j.strField "previous_hash"
  let currentHash ← j.strField "current_hash"
  let timestamp ← j.strField "timestamp"
  make sequenceId previousHash currentHash timestamp

/-- `model_dump(mode="json")`. -/
def dump (l : Ledger) : Json :=
  .obj [("sequence_id", .int l.sequenceId), ("previous_hash", .str l.previousHash.text),
    ("current_hash", .str l.currentHash.text), ("timestamp", .str l.timestamp)]

variable (py : Pydantic)

theorem parse_canon (j : Json) (h : j.wf = true) : parse py j.canon = (parse py j).map id := by
  have hs : (j.canon.get? "sequence_id").bind py.laxInt = (j.get? "sequence_id").bind py.laxInt := by
    rw [Json.get?_canon h]
    cases j.get? "sequence_id" with
    | none => rfl
    | some v => exact py.laxInt_canon v
  simp only [Option.map_id, id, parse, hs, Json.strField_canon h]

theorem parse_dump (l : Ledger) : parse py l.dump = some l := by
  have hm : make l.sequenceId l.previousHash.text l.currentHash.text l.timestamp = some l :=
    make_eq_some.2 ⟨rfl, l.previousHash.make_text, l.currentHash.make_text, rfl⟩
  have hs : (l.dump.get? "sequence_id").bind py.laxInt = some l.sequenceId := py.laxInt_int _
  rw [parse, hs]
  exact hm

theorem dump_wf (l : Ledger) : l.dump.wf = true := by
  simp only [dump, Json.wf_obj]
  simp [Json.wf]

end Ledger

/-! ### Signature block -/

/-- `SignatureAlgorithm`: `KMS_ED25519` is an alias. -/
inductive SignatureAlgorithm where
  | ed25519
  deriving DecidableEq

/-- `Signature`. -/
structure Signature where
  algorithm : SignatureAlgorithm
  keyId : String
  publicKey : HexText 64
  value : HexText 128
  keyId_ne : isBlank keyId = false
  deriving DecidableEq

namespace Signature

/-- `Signature(algorithm=…, key_id=…, public_key=…, value=…)`. -/
def make (algorithm : SignatureAlgorithm) (keyId publicKey value : String) : Option Signature := do
  let publicKey ← HexText.make 64 publicKey
  let value ← HexText.make 128 value
  if h : isBlank keyId = false then some ⟨algorithm, keyId, publicKey, value, h⟩ else none

theorem make_eq_some {a : SignatureAlgorithm} {k p v : String} {s : Signature} :
    make a k p v = some s ↔ s.keyId = k ∧ HexText.make 64 p = some s.publicKey ∧
      HexText.make 128 v = some s.value := by
  simp only [make, Option.bind_eq_bind, Option.bind_eq_some_iff]
  constructor
  · rintro ⟨pub, hp, val, hv, h⟩
    split at h
    · obtain rfl := Option.some.inj h
      exact ⟨rfl, hp, hv⟩
    · cases h
  · rintro ⟨rfl, hp, hv⟩
    exact ⟨_, hp, _, hv, dif_pos s.keyId_ne⟩

/-- The field `algorithm`, by default Ed25519. -/
def algorithmField (j : Json) : Option SignatureAlgorithm :=
  match j.get? "algorithm" with
  | none => some .ed25519
  | some (.str s) => if s = "ed25519" then some .ed25519 else none
  | some _ => none

/-- `Signature.model_validate`. -/
def parse (j : Json) : Option Signature := do
  let algorithm ← algorithmField j
  let keyId ← j.strField "key_id"
  let publicKey ← j.strField "public_key"
  let value ← j.strField "value"
  make algorithm keyId publicKey value

/-- `model_dump(mode="json")`. -/
def dump (s : Signature) : Json :=
  .obj [("algorithm", .str "ed25519"), ("key_id", .str s.keyId),
    ("public_key", .str s.publicKey.text), ("value", .str s.value.text)]

theorem algorithmField_canon {j : Json} (h : j.wf = true) : algorithmField j.canon = algorithmField j := by
  rw [algorithmField, algorithmField, Json.get?_canon h]
  cases j.get? "algorithm" with
  | none => rfl
  | some v => cases v <;> simp [Json.canon_obj]

theorem parse_canon (j : Json) (h : j.wf = true) : parse j.canon = (parse j).map id := by
  simp only [Option.map_id, id, parse, algorithmField_canon h, Json.strField_canon h]

theorem parse_dump (s : Signature) : parse s.dump = some s := by
  have hm : make .ed25519 s.keyId s.publicKey.text s.value.text = some s :=
    make_eq_some.2 ⟨rfl, s.publicKey.make_text, s.value.make_text⟩
  exact hm

theorem dump_wf (s : Signature) : s.dump.wf = true := by
  simp only [dump, Json.wf_obj]
  simp [Json.wf]

end Signature

/-! ### The proof -/

/-- `PROOF_VERSION`. -/
def proofVersion : String := "zorynex-proof-v1"

/-- `ProofV1`.  Its `type` is always `proofVersion`. -/
structure ProofV1 where
  instanceId : String
  decision : Decision
  decisionContext : DecisionContext
  governance : Governance
  determinism : Determinism
  ledger : Ledger
  signature : Signature
  instanceId_ne : instanceId ≠ ""
  modelVersion_eq : decisionContext.modelVersion = governance.modelVersion
  deriving DecidableEq

namespace ProofV1

/-- `ProofV1(instance_id=…, …)`. -/
def make (instanceId : String) (decision : Decision) (decisionContext : DecisionContext)
    (governance : Governance) (determinism : Determinism) (ledger : Ledger) (signature : Signature) :
    Option ProofV1 :=
  if h : instanceId ≠ "" ∧ decisionContext.modelVersion = governance.modelVersion then
    some ⟨instanceId, decision, decisionContext, governance, determinism, ledger, signature, h.1, h.2⟩
  else none

theorem make_eq_some {i : String} {d : Decision} {c : DecisionContext} {g : Governance} {t : Determinism}
    {l : Ledger} {s : Signature} {p : ProofV1} :
    make i d c g t l s = some p ↔ p.instanceId = i ∧ p.decision = d ∧ p.decisionContext = c ∧
      p.governance = g ∧ p.determinism = t ∧ p.ledger = l ∧ p.signature = s := by
  constructor
  · intro h
    rw [make] at h
    split at h
    · obtain rfl := Option.some.inj h
      exact ⟨rfl, rfl, rfl, rfl, rfl, rfl, rfl⟩
    · cases h
  · rintro ⟨rfl, rfl, rfl, rfl, rfl, rfl, rfl⟩
    exact dif_pos ⟨p.instanceId_ne, p.modelVersion_eq⟩

/-- The field `type`, by default `PROOF_VERSION` and nothing else. -/
def typeField (j : Json) : Option Unit :=
  match j.get? "type" with
  | none => some ()
  | some (.str s) => if s = proofVersion then some () else none
  | some _ => none

/-- `ProofV1.model_validate`. -/
def parse (py : Pydantic) (j : Json) : Option ProofV1 := do
  typeField j
  let instanceId ← j.strField "instance_id"
  let decision ← j.modelField Decision.parse "decision"
  let decisionContext ← j.modelField DecisionContext.parse "decision_context"
  let governance ← j.modelField Governance.parse "governance"
  let determinism ← j.modelField Determinism.parse "determinism"
  let ledger ← j.modelField (Ledger.parse py) "ledger"
  let signature ← j.modelField Signature.parse "signature"
  make instanceId decision decisionContext governance determinism ledger signature

/-- `model_dump(mode="json")`. -/
def dump (p : ProofV1) : Json :=
  .obj [("type", .str proofVersion), ("instance_id", .str p.instanceId), ("decision", p.decision.dump),
    ("decision_context", p.decisionContext.dump), ("governance", p.governance.dump),
    ("determinism", p.determinism.dump), ("ledger", p.ledger.dump), ("signature", p.signature.dump)]

/-- The dict that is hashed, as `to_hash_payload` returns it where no value is a
float. -/
def payload (p : ProofV1) : Json :=
  hashPayload p.decision.dump p.decisionContext.dump p.governance.dump p.determinism.dump
    p.ledger.previousHash.text p.ledger.sequenceId

/-- `to_hash_payload`. -/
def toHashPayload (p : ProofV1) : Except PyErr Json :=
  buildHashPayload p.decision.dump p.decisionContext.dump p.governance.dump p.determinism.dump
    p.ledger.previousHash.text p.ledger.sequenceId

/-- `to_sign_bytes`; `none` where `bytes.fromhex` raises. -/
def toSignBytes (p : ProofV1) : Option Bytes := fromHex p.ledger.currentHash.text

/-- `proof_id`. -/
def proofId (p : ProofV1) : String := computeProofId p.ledger.currentHash.text p.ledger.sequenceId

/-- The proof with the members of its dicts sorted: what is read back of a
stored proof. -/
def canon (p : ProofV1) : ProofV1 := { p with decisionContext := p.decisionContext.canon }

variable (py : Pydantic)

theorem typeField_canon {j : Json} (h : j.wf = true) : typeField j.canon = typeField j := by
  rw [typeField, typeField, Json.get?_canon h]
  cases j.get? "type" with
  | none => rfl
  | some v => cases v <;> simp [Json.canon_obj]

theorem make_canon (i : String) (d : Decision) (c : DecisionContext) (g : Governance) (t : Determinism)
    (l : Ledger) (s : Signature) : make i d c.canon g t l s = (make i d c g t l s).map canon := by
  by_cases h : i ≠ "" ∧ c.modelVersion = g.modelVersion
  · rw [make, make, dif_pos h, dif_pos (by exact h)]
    rfl
  · rw [make, make, dif_neg h, dif_neg (by exact h)]
    rfl

/-- **Parsing does not see the order of members.** -/
theorem parse_canon (j : Json) (h : j.wf = true) : parse py j.canon = (parse py j).map canon := by
  have hd := Json.modelField_canon h Decision.parse_canon "decision"
  have hc := Json.modelField_canon h DecisionContext.parse_canon "decision_context"
  have hg := Json.modelField_canon h Governance.parse_canon "governance"
  have ht := Json.modelField_canon h Determinism.parse_canon "determinism"
  have hl := Json.modelField_canon h (Ledger.parse_canon py) "ledger"
  have hs := Json.modelField_canon h Signature.parse_canon "signature"
  simp only [parse, typeField_canon h, Json.strField_canon h, hd, hc, hg, ht, hl, hs]
  simp only [Option.bind_eq_bind, Option.map_bind, Option.bind_map, Function.comp_def, id,
    make_canon]

/-- **The round trip of the schema**: a dumped proof parses to itself. -/
theorem parse_dump (p : ProofV1) : parse py p.dump = some p := by
  have hd : p.dump.modelField Decision.parse "decision" = some p.decision := p.decision.parse_dump
  have hc : p.dump.modelField DecisionContext.parse "decision_context" = some p.decisionContext :=
    p.decisionContext.parse_dump
  have hg : p.dump.modelField Governance.parse "governance" = some p.governance := p.governance.parse_dump
  have ht : p.dump.modelField Determinism.parse "determinism" = some p.determinism :=
    p.determinism.parse_dump
  have hl : p.dump.modelField (Ledger.parse py) "ledger" = some p.ledger := p.ledger.parse_dump py
  have hs : p.dump.modelField Signature.parse "signature" = some p.signature := p.signature.parse_dump
  have hm : make p.instanceId p.decision p.decisionContext p.governance p.determinism p.ledger
      p.signature = some p := make_eq_some.2 ⟨rfl, rfl, rfl, rfl, rfl, rfl, rfl⟩
  rw [parse, hd, hc, hg, ht, hl, hs]
  exact hm

theorem dump_wf {p : ProofV1} : p.dump.wf = true ↔ p.decisionContext.dump.wf = true := by
  rw [dump, Json.wf_obj]
  simp only [List.forall_mem_cons, p.decision.dump_wf, p.governance.dump_wf, p.determinism.dump_wf,
    p.ledger.dump_wf, p.signature.dump_wf]
  simp [Json.wf]

theorem payload_wf {p : ProofV1} : p.payload.wf = true ↔ p.decisionContext.dump.wf = true := by
  rw [payload, hashPayload_wf]
  simp [p.decision.dump_wf, p.governance.dump_wf, p.determinism.dump_wf]

theorem payload_floatFree {p : ProofV1} :
    p.payload.floatFree = true ↔ (Json.obj p.decisionContext.metadata).floatFree = true := by
  rw [payload, hashPayload_floatFree, DecisionContext.dump_floatFree]
  simp [p.decision.dump_floatFree, p.governance.dump_floatFree, p.determinism.dump_floatFree]

/-- A document without repeated keys parses to a proof without them. -/
theorem payload_wf_of_parse {j : Json} {p : ProofV1} (h : j.wf = true) (hp : parse py j = some p) :
    p.payload.wf = true := by
  simp only [parse, Option.bind_eq_bind, Option.bind_eq_some_iff] at hp
  obtain ⟨-, -, i, -, d, -, c, hc, g, -, t, -, l, -, s, -, hm⟩ := hp
  obtain ⟨v, hv, hc⟩ := Option.bind_eq_some_iff.1 hc
  have hpc : p.decisionContext = c := (make_eq_some.1 hm).2.2.1
  rw [payload_wf, hpc]
  exact DecisionContext.dump_wf_of_parse (Json.wf_of_get? h hv) hc

/-- The hash does not see the order of members. -/
theorem dumps_payload_canon (p : ProofV1) : dumps p.canon.payload = dumps p.payload := by
  have h : p.canon.payload.canon = p.payload.canon := by
    rw [payload, payload, hashPayload_canon, hashPayload_canon]
    have := p.decisionContext.dump_canon
    simp only [canon, this]
  rw [← dumps_canon p.canon.payload, h, dumps_canon]

/-- What the hash of a proof covers. -/
structure Content where
  decision : Decision
  decisionContext : DecisionContext
  governance : Governance
  determinism : Determinism
  previousHash : String
  sequenceId : ℤ

/-- The hashed content of a proof, the members of its dicts sorted. -/
def content (p : ProofV1) : Content :=
  ⟨p.decision, p.decisionContext.canon, p.governance, p.determinism, p.ledger.previousHash.text,
    p.ledger.sequenceId⟩

/-- **The hashed text determines the content.** -/
theorem content_eq_of_dumps {p q : ProofV1} (hp : p.payload.wf = true) (hq : q.payload.wf = true)
    (h : dumps p.payload = dumps q.payload) : p.content = q.content := by
  obtain ⟨hd, hc, hg, ht, hh, hn⟩ := hashPayload_dumps_inj hp hq h
  have hd : p.decision = q.decision :=
    Json.eq_of_canon_dump Decision.parse_canon Decision.parse_dump p.decision.dump_wf q.decision.dump_wf hd
  have hc : p.decisionContext.canon = q.decisionContext.canon :=
    Json.eq_of_canon_dump DecisionContext.parse_canon DecisionContext.parse_dump (payload_wf.1 hp)
      (payload_wf.1 hq) hc
  have hg : p.governance = q.governance :=
    Json.eq_of_canon_dump Governance.parse_canon Governance.parse_dump p.governance.dump_wf
      q.governance.dump_wf hg
  have ht : p.determinism = q.determinism :=
    Json.eq_of_canon_dump Determinism.parse_canon Determinism.parse_dump p.determinism.dump_wf
      q.determinism.dump_wf ht
  rw [content, content, hd, hc, hg, ht, hh, hn]

end ProofV1
end ProvableAi
