/-
# Canonical encoding and the hash scope

`canonical.py`: which Python values may be hashed (`_validate_payload`), the
canonical text of a value and its SHA-256 (`canonical_encode`,
`canonical_hash`), and the six fields a proof's hash covers
(`build_hash_payload`, `validate_hash_payload`).

`PyVal` is a finite Python value as `_validate_payload` sees it: the JSON types,
and any other object by the name of its class and by the forbidden classes it
is an instance of.  A float, a tuple or an `Enum` member is such an object; an
instance of `int` or `str` that is of no forbidden class is an `int` or a `str`.
A `Json` value is a `PyVal` by `Json.toPy`.

Two facts carry the rest of the development.  A value passes the validation
exactly if it is a JSON value without floats (`validatePayload_ok_iff`), and
then its hash is the SHA-256 of `dumps` (`canonicalHash_toPy`), whose text
determines the value up to the order of members (`dumps_inj`).
-/

import ProvableAi.Exceptions
import ProvableAi.Crypto.Sha256

namespace ProvableAi

/-! ### Python values -/

/-- The classes of `_FORBIDDEN`. -/
inductive PyClass where
  | float | decimal | datetime | date | uuid | enum | bytes | set | tuple
  deriving DecidableEq

/-- A key of a `dict`: a text, or another object by its `repr` and class name. -/
inductive PyKey where
  | str (s : String)
  | other (repr typeName : String)
  deriving DecidableEq

/-- A Python value.  `obj` is an object that is not `None` and no `bool`,
`list` or `dict`, nor an `int` or `str` of no forbidden class, with the
forbidden classes it is an instance of: a member of an integer enumeration is
`obj "Level" [.enum]`. -/
inductive PyVal where
  | none
  | bool (b : Bool)
  | int (n : ℤ)
  | str (s : String)
  | list (xs : List PyVal)
  | dict (kvs : List (PyKey × PyVal))
  | obj (typeName : String) (classes : List PyClass)

/-- `_FORBIDDEN`: the forbidden classes in the order they are tried, each with
its reason. -/
def forbidden : List (PyClass × String) :=
  [(.float, "float — use int or str"), (.decimal, "Decimal — convert to str"),
   (.datetime, "datetime — use ISO 8601 str"), (.date, "date — use ISO 8601 str"),
   (.uuid, "UUID — convert to str"), (.enum, "Enum — use .value str"),
   (.bytes, "bytes — convert to hex str"), (.set, "set — convert to sorted list"),
   (.tuple, "tuple — convert to list")]

/-- What `value_type` names for an object that is refused: its class, and the
reason of the first forbidden class it is an instance of. -/
def valueType (typeName : String) (classes : List PyClass) : String :=
  match forbidden.find? fun f => classes.contains f.1 with
  | some (_, reason) => typeName ++ " (" ++ reason ++ ")"
  | none => typeName

mutual
/-- `_validate_payload`. -/
def validatePayload (path : String) : PyVal → Except PyErr Unit
  | .none | .bool _ | .int _ | .str _ => .ok ()
  | .list xs => validateItems path 0 xs
  | .dict kvs => validateMembers path kvs
  | .obj typeName classes => .error (.canonicalJsonError path (valueType typeName classes))

/-- The loop over the items of a list, from index `i` on. -/
def validateItems (path : String) (i : ℕ) : List PyVal → Except PyErr Unit
  | [] => .ok ()
  | x :: xs =>
    match validatePayload (path ++ "[" ++ toString i ++ "]") x with
    | .ok _ => validateItems path (i + 1) xs
    | .error e => .error e

/-- The loop over the members of a `dict`. -/
def validateMembers (path : String) : List (PyKey × PyVal) → Except PyErr Unit
  | [] => .ok ()
  | (.str k, x) :: kvs =>
    match validatePayload (path ++ "." ++ k) x with
    | .ok _ => validateMembers path kvs
    | .error e => .error e
  | (.other repr typeName, _) :: _ =>
    .error (.canonicalJsonError (path ++ "[key=" ++ repr ++ "]") typeName)
end

/-! ### JSON values among the Python values -/

mutual
/-- The JSON value of a Python value, for the values that pass the validation. -/
def PyVal.toJson? : PyVal → Option Json
  | .none => some .null
  | .bool b => some (.bool b)
  | .int n => some (.int n)
  | .str s => some (.str s)
  | .list xs => (toItems? xs).map .arr
  | .dict kvs => (toMembers? kvs).map .obj
  | .obj _ _ => Option.none

/-- `toJson?` of every item. -/
def PyVal.toItems? : List PyVal → Option (List Json)
  | [] => some []
  | x :: xs => x.toJson?.bind fun j => (toItems? xs).map (j :: ·)

/-- `toJson?` of every member. -/
def PyVal.toMembers? : List (PyKey × PyVal) → Option (List (String × Json))
  | [] => some []
  | (.str k, x) :: kvs => x.toJson?.bind fun j => (toMembers? kvs).map ((k, j) :: ·)
  | (.other _ _, _) :: _ => Option.none
end

mutual
/-- A JSON value as `json.loads` returns it. -/
def Json.toPy : Json → PyVal
  | .null => .none
  | .bool b => .bool b
  | .int n => .int n
  | .float _ => .obj "float" [.float]
  | .str s => .str s
  | .arr xs => .list (toPyItems xs)
  | .obj kvs => .dict (toPyMembers kvs)

/-- `toPy` of every item. -/
def Json.toPyItems : List Json → List PyVal
  | [] => []
  | x :: xs => x.toPy :: toPyItems xs

/-- `toPy` of every member. -/
def Json.toPyMembers : List (String × Json) → List (PyKey × PyVal)
  | [] => []
  | (k, x) :: kvs => (.str k, x.toPy) :: toPyMembers kvs
end

mutual
/-- No number of the value is a float. -/
def Json.floatFree : Json → Bool
  | .float _ => false
  | .arr xs => floatFreeItems xs
  | .obj kvs => floatFreeMembers kvs
  | _ => true

/-- `floatFree` of every item. -/
def Json.floatFreeItems : List Json → Bool
  | [] => true
  | x :: xs => x.floatFree && floatFreeItems xs

/-- `floatFree` of every member's value. -/
def Json.floatFreeMembers : List (String × Json) → Bool
  | [] => true
  | (_, x) :: kvs => x.floatFree && floatFreeMembers kvs
end

namespace Json

@[simp] theorem floatFree_arr (xs : List Json) :
    (arr xs).floatFree = true ↔ ∀ x ∈ xs, x.floatFree = true := by
  rw [floatFree]
  induction xs with
  | nil => simp [floatFreeItems]
  | cons x xs ih => simp [floatFreeItems, ih]

@[simp] theorem floatFree_obj (kvs : List (String × Json)) :
    (obj kvs).floatFree = true ↔ ∀ kv ∈ kvs, kv.2.floatFree = true := by
  rw [floatFree]
  induction kvs with
  | nil => simp [floatFreeMembers]
  | cons x xs ih => obtain ⟨k, x⟩ := x; simp [floatFreeMembers, ih]

/-- The canonical form holds the same numbers. -/
@[simp] theorem floatFree_canon (j : Json) : j.canon.floatFree = j.floatFree := by
  rw [Bool.eq_iff_iff]
  induction j using Json.induct with
  | arr xs ih =>
    rw [canon_arr, floatFree_arr, floatFree_arr, List.forall_mem_map]
    exact forall₂_congr ih
  | obj kvs ih =>
    rw [canon_obj, floatFree_obj, floatFree_obj]
    simp only [(sortKeys_perm _).mem_iff, List.forall_mem_map]
    exact forall₂_congr ih
  | _ => rfl

end Json

/-- Induction on a Python value. -/
theorem PyVal.induct {P : PyVal → Prop} (none : P .none) (bool : ∀ b, P (.bool b))
    (int : ∀ n, P (.int n)) (str : ∀ s, P (.str s)) (list : ∀ xs, (∀ x ∈ xs, P x) → P (.list xs))
    (dict : ∀ kvs, (∀ kv ∈ kvs, P kv.2) → P (.dict kvs)) (obj : ∀ t cs, P (.obj t cs)) (v : PyVal) :
    P v := by
  refine @PyVal.rec P (fun xs => ∀ x ∈ xs, P x) (fun kvs => ∀ kv ∈ kvs, P kv.2) (fun kv => P kv.2)
    none bool int str (fun xs h => list xs h) (fun kvs h => dict kvs h) obj
    (by simp) ?_ (by simp) ?_ (fun _ _ h => h) v
  · intro x xs hx hxs y hy
    rcases List.mem_cons.1 hy with rfl | hy
    · exact hx
    · exact hxs y hy
  · intro kv kvs hkv hkvs y hy
    rcases List.mem_cons.1 hy with rfl | hy
    · exact hkv
    · exact hkvs y hy

theorem validateItems_ok_iff {xs : List PyVal}
    (h : ∀ x ∈ xs, ∀ path, validatePayload path x = .ok () ↔ x.toJson?.isSome) (path : String) :
    ∀ i, validateItems path i xs = .ok () ↔ (PyVal.toItems? xs).isSome := by
  induction xs with
  | nil => intro i; simp [validateItems, PyVal.toItems?]
  | cons x xs ih =>
    intro i
    have hx := h x (by simp) (path ++ "[" ++ toString i ++ "]")
    have hxs := ih (fun y hy => h y (List.mem_cons_of_mem _ hy)) (i + 1)
    rw [validateItems, PyVal.toItems?]
    cases hj : x.toJson? with
    | none =>
      rw [hj] at hx
      split
      · rename_i heq; exact absurd (hx.1 heq) (by simp)
      · simp
    | some j =>
      rw [hj] at hx
      rw [hx.2 rfl]
      simpa using hxs

theorem validateMembers_ok_iff {kvs : List (PyKey × PyVal)}
    (h : ∀ kv ∈ kvs, ∀ path, validatePayload path kv.2 = .ok () ↔ kv.2.toJson?.isSome) (path : String) :
    validateMembers path kvs = .ok () ↔ (PyVal.toMembers? kvs).isSome := by
  induction kvs with
  | nil => simp [validateMembers, PyVal.toMembers?]
  | cons kv kvs ih =>
    obtain ⟨k, x⟩ := kv
    have hxs := ih fun y hy => h y (List.mem_cons_of_mem _ hy)
    cases k with
    | other r t => simp [validateMembers, PyVal.toMembers?]
    | str k =>
      have hx := h (.str k, x) (by simp) (path ++ "." ++ k)
      simp only at hx
      rw [validateMembers, PyVal.toMembers?]
      cases hj : x.toJson? with
      | none =>
        rw [hj] at hx
        split
        · rename_i heq; exact absurd (hx.1 heq) (by simp)
        · simp
      | some j =>
        rw [hj] at hx
        rw [hx.2 rfl]
        simpa using hxs

/-- **The validation accepts exactly the JSON values**, whatever the path. -/
theorem validatePayload_ok_iff (v : PyVal) :
    ∀ path, validatePayload path v = .ok () ↔ v.toJson?.isSome := by
  induction v using PyVal.induct with
  | list xs ih => intro path; simp [validatePayload, PyVal.toJson?, validateItems_ok_iff ih]
  | dict kvs ih => intro path; simp [validatePayload, PyVal.toJson?, validateMembers_ok_iff ih]
  | obj t cs => intro path; simp [validatePayload, PyVal.toJson?]
  | _ => intro path; simp [validatePayload, PyVal.toJson?]

namespace Json

theorem toItems?_toPyItems {xs : List Json}
    (h : ∀ x ∈ xs, x.toPy.toJson? = if x.floatFree then some x else none) :
    PyVal.toItems? (toPyItems xs) = if floatFreeItems xs then some xs else none := by
  induction xs with
  | nil => rfl
  | cons x xs ih =>
    have hxs := ih fun y hy => h y (List.mem_cons_of_mem _ hy)
    rw [toPyItems, PyVal.toItems?, h x (by simp), hxs, floatFreeItems]
    cases x.floatFree <;> cases floatFreeItems xs <;> rfl

theorem toMembers?_toPyMembers {kvs : List (String × Json)}
    (h : ∀ kv ∈ kvs, kv.2.toPy.toJson? = if kv.2.floatFree then some kv.2 else none) :
    PyVal.toMembers? (toPyMembers kvs) = if floatFreeMembers kvs then some kvs else none := by
  induction kvs with
  | nil => rfl
  | cons kv kvs ih =>
    obtain ⟨k, x⟩ := kv
    have hx := h (k, x) (by simp)
    have hxs := ih fun y hy => h y (List.mem_cons_of_mem _ hy)
    simp only at hx
    rw [toPyMembers, PyVal.toMembers?, hx, hxs, floatFreeMembers]
    cases x.floatFree <;> cases floatFreeMembers kvs <;> rfl

/-- A JSON value is a Python value that passes the validation if it holds no
float, and is then itself. -/
theorem toJson?_toPy (j : Json) : j.toPy.toJson? = if j.floatFree then some j else none := by
  induction j using Json.induct with
  | arr xs ih =>
    rw [toPy, PyVal.toJson?, toItems?_toPyItems ih, floatFree]
    cases floatFreeItems xs <;> rfl
  | obj kvs ih =>
    rw [toPy, PyVal.toJson?, toMembers?_toPyMembers ih, floatFree]
    cases floatFreeMembers kvs <;> rfl
  | _ => rfl

end Json

namespace PyVal

theorem floatFree_of_toItems? {xs : List PyVal}
    (h : ∀ x ∈ xs, ∀ j, x.toJson? = some j → j.floatFree = true) :
    ∀ {js}, toItems? xs = some js → ∀ j ∈ js, j.floatFree = true := by
  induction xs with
  | nil => intro js hjs j hj; simp [toItems?] at hjs; simp [hjs] at hj
  | cons x xs ih =>
    intro js hjs
    rw [toItems?] at hjs
    obtain ⟨j, hj, hjs⟩ := Option.bind_eq_some_iff.1 hjs
    obtain ⟨js, hxs, rfl⟩ := Option.map_eq_some_iff.1 hjs
    refine List.forall_mem_cons.2 ⟨h x (by simp) j hj, ?_⟩
    exact ih (fun y hy => h y (List.mem_cons_of_mem _ hy)) hxs

theorem floatFree_of_toMembers? {kvs : List (PyKey × PyVal)}
    (h : ∀ kv ∈ kvs, ∀ j, kv.2.toJson? = some j → j.floatFree = true) :
    ∀ {js}, toMembers? kvs = some js → ∀ j ∈ js, j.2.floatFree = true := by
  induction kvs with
  | nil => intro js hjs j hj; simp [toMembers?] at hjs; simp [hjs] at hj
  | cons kv kvs ih =>
    intro js hjs
    obtain ⟨k, x⟩ := kv
    cases k with
    | other r t => simp [toMembers?] at hjs
    | str k =>
      rw [toMembers?] at hjs
      obtain ⟨j, hj, hjs⟩ := Option.bind_eq_some_iff.1 hjs
      obtain ⟨js, hxs, rfl⟩ := Option.map_eq_some_iff.1 hjs
      refine List.forall_mem_cons.2 ⟨h (.str k, x) (by simp) j hj, ?_⟩
      exact ih (fun y hy => h y (List.mem_cons_of_mem _ hy)) hxs

/-- No float passes the validation. -/
theorem floatFree_of_toJson? (v : PyVal) : ∀ j, v.toJson? = some j → j.floatFree = true := by
  induction v using PyVal.induct with
  | list xs ih =>
    intro j hj
    obtain ⟨js, hjs, rfl⟩ := Option.map_eq_some_iff.1 hj
    exact (Json.floatFree_arr js).2 (floatFree_of_toItems? ih hjs)
  | dict kvs ih =>
    intro j hj
    obtain ⟨js, hjs, rfl⟩ := Option.map_eq_some_iff.1 hj
    exact (Json.floatFree_obj js).2 (floatFree_of_toMembers? ih hjs)
  | obj t cs => intro j hj; simp [toJson?] at hj
  | _ => intro j hj; obtain rfl := Option.some.inj hj; rfl

end PyVal

/-! ### Encoding and hash -/

/-- `canonical_encode`. -/
def canonicalEncode (payload : PyVal) : Except PyErr String :=
  match validatePayload "root" payload, payload.toJson? with
  | .error e, _ => .error e
  | .ok _, some j => .ok (dumps j)
  | .ok _, none => .error .typeError

/-- `canonical_hash`. -/
def canonicalHash (payload : PyVal) : Except PyErr String :=
  (canonicalEncode payload).map sha256Hex

/-- **The hash of a JSON value** without floats is the SHA-256 of its text; with
one, the value is refused. -/
theorem canonicalHash_toPy {j : Json} :
    canonicalHash j.toPy = .ok (sha256Hex (dumps j)) ↔ j.floatFree = true := by
  have hv := validatePayload_ok_iff j.toPy "root"
  rw [j.toJson?_toPy] at hv
  rw [canonicalHash, canonicalEncode, j.toJson?_toPy]
  cases hf : j.floatFree with
  | true =>
    rw [hf] at hv
    rw [hv.2 rfl]
    simp [Except.map]
  | false =>
    rw [hf] at hv
    cases hp : validatePayload "root" j.toPy with
    | ok u => exact absurd (hv.1 hp) (by simp)
    | error e => simp [Except.map]

/-- `_REQUIRED_HASH_FIELDS`, sorted. -/
def requiredHashFields : List String :=
  ["decision", "decision_context", "determinism", "governance", "previous_hash", "sequence_id"]

/-- `_EXCLUDED_HASH_FIELDS`, sorted. -/
def excludedHashFields : List String :=
  ["current_hash", "instance_id", "key_id", "proof_id", "public_key", "signature", "tenant_id",
   "timestamp", "type"]

/-- `type(payload).__name__`. -/
def Json.typeName : Json → String
  | .null => "NoneType"
  | .bool _ => "bool"
  | .int _ => "int"
  | .float _ => "float"
  | .str _ => "str"
  | .arr _ => "list"
  | .obj _ => "dict"

/-- `validate_hash_payload`: all the required fields, no excluded one, no other. -/
def validateHashPayload (payload : Json) : Except PyErr Unit :=
  match payload with
  | .obj kvs =>
    let keys := kvs.map Prod.fst
    let missing := requiredHashFields.filter fun k => !keys.contains k
    let presentExcluded := excludedHashFields.filter fun k => keys.contains k
    let unknown := (keys.filter fun k => !requiredHashFields.contains k).insertionSort (· ≤ ·)
    if missing ≠ [] then
      .error (.valueError ("Hash payload missing required fields: " ++ PyErr.reprList missing ++
        ". Required: " ++ PyErr.reprList requiredHashFields))
    else if presentExcluded ≠ [] then
      .error (.valueError ("Hash payload contains excluded fields: " ++
        PyErr.reprList presentExcluded ++ ". These must never be hashed: " ++
        PyErr.reprList excludedHashFields))
    else if unknown ≠ [] then
      .error (.valueError ("Hash payload contains unknown fields: " ++ PyErr.reprList unknown ++
        ". Unknown fields are rejected to prevent silent hash changes. " ++
        "Only these fields are allowed: " ++ PyErr.reprList requiredHashFields))
    else validatePayload "root" payload.toPy
  | j => .error (.valueError ("Hash payload must be dict, got " ++ j.typeName))

/-- The payload `build_hash_payload` returns. -/
def hashPayload (decision decisionContext governance determinism : Json) (previousHash : String)
    (sequenceId : ℤ) : Json :=
  .obj [("decision", decision), ("decision_context", decisionContext), ("governance", governance),
    ("determinism", determinism), ("previous_hash", .str previousHash), ("sequence_id", .int sequenceId)]

/-- `build_hash_payload`. -/
def buildHashPayload (decision decisionContext governance determinism : Json) (previousHash : String)
    (sequenceId : ℤ) : Except PyErr Json :=
  let payload := hashPayload decision decisionContext governance determinism previousHash sequenceId
  match validateHashPayload payload with
  | .ok _ => .ok payload
  | .error e => .error e

/-- The payload has the six fields, so only a float makes the call raise. -/
theorem validateHashPayload_hashPayload (d c g t : Json) (h : String) (n : ℤ) :
    validateHashPayload (hashPayload d c g t h n) =
      validatePayload "root" (hashPayload d c g t h n).toPy := by
  rfl

theorem hashPayload_floatFree {d c g t : Json} {h : String} {n : ℤ} :
    (hashPayload d c g t h n).floatFree = true ↔
      d.floatFree = true ∧ c.floatFree = true ∧ g.floatFree = true ∧ t.floatFree = true := by
  simp only [hashPayload, Json.floatFree_obj]
  simp [Json.floatFree]

/-- **The recomputed hash.**  Building the payload and hashing it returns
exactly when no section holds a float, and then it is the SHA-256 of the
canonical text of the payload. -/
theorem buildHashPayload_hash {d c g t : Json} {h : String} {n : ℤ} {x : String} :
    (buildHashPayload d c g t h n).bind (fun p => canonicalHash p.toPy) = .ok x ↔
      (hashPayload d c g t h n).floatFree = true ∧ x = sha256Hex (dumps (hashPayload d c g t h n)) := by
  have hv := validatePayload_ok_iff (hashPayload d c g t h n).toPy "root"
  rw [Json.toJson?_toPy] at hv
  rw [buildHashPayload, validateHashPayload_hashPayload]
  cases hp : validatePayload "root" (hashPayload d c g t h n).toPy with
  | error e =>
    have hf : ¬ (hashPayload d c g t h n).floatFree = true := fun hf => by simp [hp, hf] at hv
    simp [hf, Except.bind]
  | ok u =>
    have hf : (hashPayload d c g t h n).floatFree = true := by
      by_contra hf
      exact absurd (hv.1 hp) (by simp [hf])
    have hx := canonicalHash_toPy.2 hf
    simp [Except.bind, hf, hx, eq_comm]

theorem hashPayload_wf {d c g t : Json} {h : String} {n : ℤ} :
    (hashPayload d c g t h n).wf = true ↔
      d.wf = true ∧ c.wf = true ∧ g.wf = true ∧ t.wf = true := by
  simp only [hashPayload, Json.wf_obj]
  simp [Json.wf]

/-- The canonical payload is the payload of the canonical sections, its members
in the order of their names. -/
theorem hashPayload_canon (d c g t : Json) (h : String) (n : ℤ) :
    (hashPayload d c g t h n).canon =
      .obj [("decision", d.canon), ("decision_context", c.canon), ("determinism", t.canon),
        ("governance", g.canon), ("previous_hash", .str h), ("sequence_id", .int n)] := by
  rw [hashPayload, Json.canon_obj]
  refine congrArg Json.obj (Json.sortKeys_eq_of_perm ?_ ?_)
  · simp only [List.map_cons, List.map_nil, Json.canon_str, Json.canon_int]
    grind
  · simp only [List.map_cons, List.map_nil]
    decide

/-- The text of a payload determines its sections as JSON values, the hash
before it and the number. -/
theorem hashPayload_dumps_inj {d c g t d' c' g' t' : Json} {h h' : String} {n n' : ℤ}
    (hw : (hashPayload d c g t h n).wf = true) (hw' : (hashPayload d' c' g' t' h' n').wf = true)
    (heq : dumps (hashPayload d c g t h n) = dumps (hashPayload d' c' g' t' h' n')) :
    d.canon = d'.canon ∧ c.canon = c'.canon ∧ g.canon = g'.canon ∧ t.canon = t'.canon ∧
      h = h' ∧ n = n' := by
  have := (dumps_inj hw hw').1 heq
  rw [hashPayload_canon, hashPayload_canon] at this
  simp only [Json.obj.injEq, List.cons.injEq, Prod.mk.injEq, Json.str.injEq, Json.int.injEq,
    true_and, and_true] at this
  obtain ⟨hd, hc, ht, hg, hh, hn⟩ := this
  exact ⟨hd, hc, hg, ht, hh, hn⟩

/-! ### Hashes as texts -/

/-- `genesis_hash()`: the `previous_hash` of the first entry. -/
def genesisHash : String := String.ofList (List.replicate 64 '0')

@[simp] theorem genesisHash_length : genesisHash.length = 64 := by decide

/-- `is_valid_hash`. -/
def isValidHash (value : String) : Bool := value.length == 64 && intBase16 value

@[simp] theorem isValidHash_sha256Hex (s : String) : isValidHash (sha256Hex s) = true := by
  simp [isValidHash]

theorem isValidHash_genesisHash : isValidHash genesisHash = true := by decide

/-- `compute_proof_id`. -/
def computeProofId (currentHash : String) (sequenceId : ℤ) : String :=
  sha256Hex (currentHash ++ ":" ++ toString sequenceId)

end ProvableAi
