/-
# Sensitive fields

`pii.py`: `hash_sensitive`, `is_hashed`, `scrub_inputs`, `scrub_inputs_full` and
`assert_no_pii`.

A `dict` is the list of its members.  `key.lower()` is compared with names in
ASCII, and of the characters beyond ASCII only the Kelvin sign has a lower case
in ASCII, so `lowerName` knows that one.

`scrub_inputs` looks at the members of the outermost object only, and takes every
text of 71 characters that starts with `sha256:` for a digest.
`scrub_complete_iff`: it does what its docstring says exactly when no sensitive
name stands further down over a raw value and no sensitive value merely looks
like a digest.  What it does on the outermost level it does for good
(`scrubInputs_idem`), and `assert_no_pii`, which looks no deeper, is content
(`assertNoPii_scrubInputs`).
-/

import ProvableAi.Crypto.Sha256
import ProvableAi.Exceptions

namespace ProvableAi
namespace Pii

/-- `SENSITIVE_FIELDS`. -/
def sensitiveFields : List String :=
  ["name", "full_name", "first_name", "last_name", "given_name", "surname",
   "ssn", "social_security_number", "national_id", "passport", "passport_number",
   "driver_license", "tax_id", "ein",
   "email", "email_address", "phone", "phone_number", "mobile",
   "address", "street_address", "city", "zip_code", "postal_code",
   "account_number", "bank_account", "routing_number",
   "card_number", "credit_card", "cvv", "card_cvv",
   "dob", "date_of_birth", "birth_date", "diagnosis", "condition"]

/-- `key.lower()`, as far as a name in ASCII can tell. -/
def lowerName (key : String) : String :=
  String.ofList (key.toList.map fun c => if c = '\u212a' then 'k' else c.toLower)

/-- `key.lower() in SENSITIVE_FIELDS`. -/
def isSensitive (key : String) : Bool := lowerName key ∈ sensitiveFields

/-- `hash_sensitive(value)`. -/
def hashSensitive (value : Json) : String :=
  let raw := match value with
    | .str s => s
    | value => dumps value
  "sha256:" ++ sha256Hex raw

/-- `is_hashed(value)`. -/
def isHashed : Json → Bool
  | .str s => "sha256:".toList.isPrefixOf s.toList && s.length == 71
  | _ => false

/-- What `scrub_inputs` puts for one member. -/
def scrubMember (key : String) (val : Json) : Json :=
  if isSensitive key then
    if isHashed val then val else .str (hashSensitive val)
  else val

/-- `scrub_inputs(inputs)`. -/
def scrubInputs (inputs : List (String × Json)) : List (String × Json) :=
  inputs.map fun member => (member.1, scrubMember member.1 member.2)

/-- `scrub_inputs_full(inputs)`. -/
def scrubInputsFull (inputs : List (String × Json)) : String := sha256Hex (dumps (.obj (scrubInputs inputs)))

/-- What `assert_no_pii` says of one member. -/
def violation? (key : String) (val : Json) : Option String :=
  if isSensitive key then
    match val with
    | .str _ => if isHashed val then none else some ("  " ++ PyErr.reprStr key ++ ": raw value present (not hashed)")
    | _ => some ("  " ++ PyErr.reprStr key ++ ": non-string sensitive value (must be hashed first)")
  else none

/-- `assert_no_pii(data)`. -/
def assertNoPii (data : List (String × Json)) : Except PyErr Unit :=
  let violations := data.filterMap fun member => violation? member.1 member.2
  if violations = [] then .ok ()
  else .error (.valueError
    ("PII violation — the following sensitive fields contain raw values:\n" ++ "\n".intercalate violations ++
      "\nCall scrub_inputs() before writing to DB."))

/-! ### Values inside a value -/

/-- A step into a value. -/
inductive Step where
  | key (k : String)
  | index (i : ℕ)
  deriving DecidableEq

/-- The value at the end of a path. -/
def at? : Json → List Step → Option Json
  | v, [] => some v
  | v, .key k :: p => (v.get? k).bind fun w => at? w p
  | .arr xs, .index i :: p => xs[i]?.bind fun w => at? w p
  | _, .index _ :: _ => none

/-- Neither an object nor a list. -/
def isLeaf : Json → Bool
  | .obj _ | .arr _ => false
  | _ => true

/-- `sha256:` and 64 lower-case hexadecimal digits. -/
def isDigest : Json → Bool
  | .str s => "sha256:".toList.isPrefixOf s.toList && (s.toList.drop 7).length == 64 &&
      (s.toList.drop 7).all isLowerHex
  | _ => false

/-- What the docstrings promise of `scrub_inputs`. -/
structure Complete (x : List (String × Json)) : Prop where
  /-- No sensitive name keeps a raw value, however deep it stands. -/
  hashed : ∀ p k v, at? (.obj (scrubInputs x)) (p ++ [.key k]) = some v → isSensitive k = true → isDigest v = true
  /-- A leaf under names that are not sensitive stays. -/
  preserved : ∀ p v, (∀ k, Step.key k ∈ p → isSensitive k = false) → isLeaf v = true →
    at? (.obj x) p = some v → at? (.obj (scrubInputs x)) p = some v
  idempotent : scrubInputs (scrubInputs x) = scrubInputs x
  full : scrubInputsFull (scrubInputs x) = scrubInputsFull x

/-- Nothing sensitive is out of the reach of `scrub_inputs`. -/
structure WithinReach (x : List (String × Json)) : Prop where
  /-- Below a member that is not sensitive, no sensitive name has a raw value. -/
  nested : ∀ k p l v, isSensitive k = false → at? (.obj x) (.key k :: (p ++ [.key l])) = some v →
    isSensitive l = true → isDigest v = true
  /-- No sensitive value merely looks like a digest. -/
  looksHashed : ∀ k v, x.lookup k = some v → isSensitive k = true → isHashed v = true → isDigest v = true

variable {x : List (String × Json)} {k : String} {v : Json}

@[simp] theorem at?_key (kvs : List (String × Json)) (p : List Step) :
    at? (.obj kvs) (.key k :: p) = (kvs.lookup k).bind fun w => at? w p := rfl

theorem at?_str (s : String) (step : Step) (p : List Step) : at? (.str s) (step :: p) = none := by
  cases step <;> rfl

/-- A digest is a text of the prefix and 64 digits. -/
theorem hashSensitive_isDigest (value : Json) : isDigest (.str (hashSensitive value)) = true := by
  obtain ⟨t, ht⟩ : ∃ t, hashSensitive value = "sha256:" ++ sha256Hex t := ⟨_, rfl⟩
  have hlist : (hashSensitive value).toList = "sha256:".toList ++ (sha256Hex t).toList := by
    rw [ht, String.toList_append]
  have hdrop : (hashSensitive value).toList.drop 7 = (sha256Hex t).toList := by
    rw [hlist]
    exact List.drop_left' rfl
  have hstart : "sha256:".toList.isPrefixOf (hashSensitive value).toList = true := by
    rw [hlist, List.isPrefixOf_iff_prefix]
    exact List.prefix_append _ _
  rw [isDigest, hdrop, hstart, sha256Hex_lower, String.length_toList, sha256Hex_length]
  rfl

/-- What is a digest passes for hashed. -/
theorem isHashed_of_isDigest (h : isDigest v = true) : isHashed v = true := by
  cases v with
  | str s =>
    simp only [isDigest, Bool.and_eq_true, beq_iff_eq, List.length_drop, String.length_toList] at h
    have hlen : s.length = 71 := by omega
    rw [isHashed, h.1.1, hlen]
    rfl
  | _ => exact absurd h (by simp [isDigest])

/-- What passes for hashed is a text. -/
theorem exists_str_of_isHashed (h : isHashed v = true) : ∃ s, v = .str s := by
  cases v with
  | str s => exact ⟨s, rfl⟩
  | _ => exact absurd h (by simp [isHashed])

theorem scrubMember_plain (h : isSensitive k = false) : scrubMember k v = v := by simp [scrubMember, h]

/-- A sensitive member passes for hashed afterwards. -/
theorem isHashed_scrubMember (h : isSensitive k = true) : isHashed (scrubMember k v) = true := by
  by_cases hv : isHashed v = true
  · simp [scrubMember, h, hv]
  · simpa [scrubMember, h, hv] using isHashed_of_isDigest (hashSensitive_isDigest v)

/-- A member that is scrubbed once stays as it is. -/
theorem scrubMember_idem (k : String) (v : Json) : scrubMember k (scrubMember k v) = scrubMember k v := by
  by_cases h : isSensitive k = true
  · rw [scrubMember, if_pos h, if_pos (isHashed_scrubMember h)]
  · rw [scrubMember_plain (Bool.eq_false_iff.2 h)]

theorem lookup_scrubInputs : (scrubInputs x).lookup k = (x.lookup k).map (scrubMember k) := by
  induction x with
  | nil => rfl
  | cons member x ih =>
    obtain ⟨l, w⟩ := member
    rw [scrubInputs, List.map_cons, List.lookup_cons, List.lookup_cons, ← scrubInputs, ih]
    by_cases hl : k = l
    · subst hl; simp
    · rw [beq_false_of_ne hl]

/-- **Scrubbing twice is scrubbing once.** -/
theorem scrubInputs_idem (x : List (String × Json)) : scrubInputs (scrubInputs x) = scrubInputs x := by
  simp only [scrubInputs, List.map_map]
  refine List.map_congr_left fun member _ => ?_
  exact Prod.ext rfl (scrubMember_idem _ _)

/-- What hangs below a name that is not sensitive stays as it is. -/
theorem at?_scrubInputs (h : isSensitive k = false) (p : List Step) :
    at? (.obj (scrubInputs x)) (.key k :: p) = at? (.obj x) (.key k :: p) := by
  rw [at?_key, at?_key, lookup_scrubInputs]
  cases x.lookup k with
  | none => rfl
  | some v => rw [Option.map_some, scrubMember_plain h]

/-- Under a sensitive name there is a text, and nothing below it. -/
theorem at?_below_sensitive (h : isSensitive k = true) (step : Step) (p : List Step) :
    at? (.obj (scrubInputs x)) (.key k :: step :: p) = none := by
  rw [at?_key, lookup_scrubInputs]
  cases x.lookup k with
  | none => rfl
  | some v =>
    obtain ⟨s, hs⟩ := exists_str_of_isHashed (isHashed_scrubMember (v := v) h)
    rw [Option.map_some, Option.bind_some, hs, at?_str]

/-- Leaves under names that are not sensitive stay. -/
theorem scrubInputs_preserves (p : List Step) (hp : ∀ k, Step.key k ∈ p → isSensitive k = false) (hv : isLeaf v = true)
    (h : at? (.obj x) p = some v) : at? (.obj (scrubInputs x)) p = some v := by
  cases p with
  | nil =>
    obtain rfl : Json.obj x = v := Option.some.inj h
    exact absurd hv (by simp [isLeaf])
  | cons step p =>
    cases step with
    | index i => exact absurd h (by simp [at?])
    | key k => rwa [at?_scrubInputs (hp k (by simp))]

/-- **`scrub_inputs` keeps its promise exactly within its reach.** -/
theorem scrub_complete_iff (x : List (String × Json)) : Complete x ↔ WithinReach x := by
  constructor
  · intro h
    refine ⟨fun k p l v hk hat hl => ?_, fun k v hv hk hhashed => ?_⟩
    · exact h.hashed (.key k :: p) l v (by rw [List.cons_append, at?_scrubInputs hk, hat]) hl
    · refine h.hashed [] k v ?_ hk
      rw [List.nil_append, at?_key, lookup_scrubInputs, hv, Option.map_some, Option.bind_some, at?, scrubMember,
        if_pos hk, if_pos hhashed]
  · intro h
    refine ⟨fun p k v hat hk => ?_, fun p v hp hv hat => scrubInputs_preserves p hp hv hat, scrubInputs_idem x, ?_⟩
    · cases p with
      | nil =>
        rw [List.nil_append, at?_key, lookup_scrubInputs] at hat
        cases hx : x.lookup k with
        | none => rw [hx] at hat; cases hat
        | some w =>
          rw [hx, Option.map_some, Option.bind_some, at?, Option.some.injEq] at hat
          subst hat
          by_cases hw : isHashed w = true
          · rw [scrubMember, if_pos hk, if_pos hw]
            exact h.looksHashed k w hx hk hw
          · rw [scrubMember, if_pos hk, if_neg hw]
            exact hashSensitive_isDigest w
      | cons step p =>
        rw [List.cons_append] at hat
        cases step with
        | index i => exact absurd hat (by simp [at?])
        | key k₀ =>
          by_cases hk₀ : isSensitive k₀ = true
          · obtain ⟨step, q, hq⟩ : ∃ step q, p ++ [.key k] = step :: q := List.exists_cons_of_ne_nil (by simp)
            rw [hq, at?_below_sensitive hk₀] at hat
            cases hat
          · have hk₀ := Bool.eq_false_iff.2 hk₀
            rw [at?_scrubInputs hk₀] at hat
            exact h.nested k₀ p k v hk₀ hat hk
    · rw [scrubInputsFull, scrubInputsFull, scrubInputs_idem]

/-- An address inside an object whose name is not sensitive stays readable. -/
theorem scrub_misses_nested :
    ¬ Complete [("applicant", .obj [("email", .str "john@example.com")])] := by
  intro h
  have hdigest := h.hashed [.key "applicant"] "email" (.str "john@example.com") (by decide +kernel) (by decide +kernel)
  exact absurd hdigest (by decide +kernel)

/-- The repository's own check finds nothing in what was scrubbed. -/
theorem assertNoPii_scrubInputs (x : List (String × Json)) : assertNoPii (scrubInputs x) = .ok () := by
  have hnone : ∀ member ∈ scrubInputs x, violation? member.1 member.2 = none := by
    intro member hmem
    obtain ⟨⟨k, v⟩, -, rfl⟩ := List.mem_map.1 hmem
    by_cases hk : isSensitive k = true
    · have hhashed := isHashed_scrubMember (v := v) hk
      obtain ⟨s, hs⟩ := exists_str_of_isHashed hhashed
      rw [hs] at hhashed
      simp [violation?, hk, hs, hhashed]
    · simp [violation?, hk]
  rw [assertNoPii, if_pos (List.filterMap_eq_nil_iff.2 hnone)]

end Pii
end ProvableAi
