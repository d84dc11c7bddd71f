/-
# The browser's verifier

`verifyPackage` of `web/verifier.html`: the checks of `verify_package.py` again,
written in JavaScript.  Three things differ in the language: `v || d` takes the
default for another set of values than Python's `bool` (`[]` and `{}` are true
here), `Object.keys(obj).sort()` compares UTF-16 code units where Python
compares code points, and what `v.slice` and `${v}` raise on.  One thing differs
in the program: the last check says "signature mathematically valid" and never
looks at the signature.

A property that an object does not have is `undefined`, here `none`; a function
that throws returns `none`.  The functions are read on the values both languages
hold alike (`portable`): integers up to `2^53 - 1`, texts of the basic plane.

`agree_iff` says when both programs return the same results.
-/

import ProvableAi.Package.Binding

namespace ProvableAi

/-! ### Values that both languages hold alike -/

/-- A text without characters beyond the basic plane. -/
def isBmp (s : String) : Bool := s.toList.all fun c => c.toNat < 65536

mutual
/-- No float, no integer beyond `2^53 - 1`, no text beyond the basic plane. -/
def Json.portable : Json → Bool
  | .float _ => false
  | .int n => decide (n.natAbs ≤ 9007199254740991)
  | .str s => isBmp s
  | .arr xs => portableItems xs
  | .obj kvs => portableMembers kvs
  | _ => true

/-- `portable` of every item. -/
def Json.portableItems : List Json → Bool
  | [] => true
  | x :: xs => x.portable && portableItems xs

/-- `portable` of every key and value. -/
def Json.portableMembers : List (String × Json) → Bool
  | [] => true
  | (k, x) :: kvs => isBmp k && x.portable && portableMembers kvs
end

@[simp] theorem Json.portable_arr (xs : List Json) :
    (arr xs).portable = true ↔ ∀ x ∈ xs, x.portable = true := by
  rw [portable]
  induction xs with
  | nil => simp [portableItems]
  | cons x xs ih => simp [portableItems, ih]

@[simp] theorem Json.portable_obj (kvs : List (String × Json)) :
    (obj kvs).portable = true ↔ ∀ kv ∈ kvs, isBmp kv.1 = true ∧ kv.2.portable = true := by
  rw [portable]
  induction kvs with
  | nil => simp [portableMembers]
  | cons kv kvs ih => obtain ⟨k, x⟩ := kv; simp [portableMembers, ih]

theorem Json.portable_of_get? {j v : Json} (h : j.portable = true) {k : String} (hv : j.get? k = some v) :
    v.portable = true := by
  cases j with
  | obj kvs =>
    rw [get?_obj] at hv
    obtain ⟨l₁, l₂, rfl, -⟩ := List.lookup_eq_some_iff.1 hv
    exact ((portable_obj _).1 h (k, v) (by simp)).2
  | _ => cases hv

namespace Browser

/-! ### The language -/

/-- The code units of a text. -/
def utf16 (s : String) : List ℕ :=
  s.toList.flatMap fun c =>
    if c.toNat < 65536 then [c.toNat]
    else [55296 + (c.toNat - 65536) / 1024, 56320 + (c.toNat - 65536) % 1024]

/-- The members in the order of `Object.keys(obj).sort()`. -/
def sortKeys {α : Type*} (kvs : List (String × α)) : List (String × α) :=
  kvs.insertionSort fun a b => utf16 a.1 ≤ utf16 b.1

mutual
/-- The value with the members of every object in this order. -/
def canon : Json → Json
  | .arr xs => .arr (canonItems xs)
  | .obj kvs => .obj (sortKeys (canonMembers kvs))
  | j => j

/-- `canon` of every item. -/
def canonItems : List Json → List Json
  | [] => []
  | x :: xs => canon x :: canonItems xs

/-- `canon` of every member's value. -/
def canonMembers : List (String × Json) → List (String × Json)
  | [] => []
  | (k, x) :: xs => (k, canon x) :: canonMembers xs
end

/-- `canonicalJSON`. -/
def canonicalJSON (v : Json) : String := String.ofList (render (canon v))

/-- `Boolean(v)`. -/
def truthy : Option Json → Bool
  | none => false
  | some .null => false
  | some (.bool b) => b
  | some (.int n) => n != 0
  | some (.float x) => !x.isZero
  | some (.str s) => s != ""
  | some (.arr _) => true
  | some (.obj _) => true

/-- `v || d`. -/
def orElse (v : Option Json) (d : Json) : Json := if truthy v then v.getD d else d

/-- `v.k`, for names that are on no prototype. -/
def prop (v : Json) (k : String) : Option (Option Json) := if v = .null then none else some (v.get? k)

mutual
/-- `String(v)`: an object of its own `toString` cannot be converted. -/
def toStr : Json → Option String
  | .null => some "null"
  | .bool true => some "true"
  | .bool false => some "false"
  | .int n => some (toString n)
  | .float x => some (String.ofList x.text)
  | .str s => some s
  | .arr xs => (itemTexts xs).map ",".intercalate
  | .obj kvs => if (kvs.lookup "toString").isSome then none else some "[object Object]"

/-- What `join` puts together of an array. -/
def itemTexts : List Json → Option (List String)
  | [] => some []
  | .null :: xs => do
    let ts ← itemTexts xs
    pure ("" :: ts)
  | x :: xs => do
    let t ← toStr x
    let ts ← itemTexts xs
    pure (t :: ts)
end

/-- `${v}`. -/
def template : Option Json → Option String
  | none => some "undefined"
  | some v => toStr v

/-- `${v.slice(0, n)}`. -/
def slice (n : ℕ) : Json → Option String
  | .str s => some (ProvableAi.slice n s)
  | .arr xs => toStr (.arr (xs.take n))
  | _ => none

/-! ### The program -/

/-- A check's object. -/
structure Check where
  name : String
  passed : Bool
  detail : String
  failure : String
  deriving DecidableEq

/-- `recomputeHash`. -/
def recomputeHash (entry : Json) : Option String := do
  let led := orElse (← prop entry "ledger") (.obj [])
  let decision := orElse (← prop entry "decision") (.obj [])
  let decisionContext := orElse (← prop entry "decision_context") (.obj [])
  let governance := orElse (← prop entry "governance") (.obj [])
  let determinism := orElse (← prop entry "determinism") (.obj [])
  let previousHash := orElse (← prop led "previous_hash") (.str "")
  let sequenceId := orElse (← prop led "sequence_id") (.int 0)
  pure (sha256Hex (canonicalJSON
    (hashedContent decision decisionContext governance determinism previousHash sequenceId)))

/-- `computePackageHash`. -/
def computePackageHash (ledger : List Json) : String := sha256Hex (canonicalJSON (.arr ledger))

/-- `(e.ledger||{}).current_hash||''`. -/
def entryHash (e : Json) : Option Json := do
  let led := orElse (← prop e "ledger") (.obj [])
  pure (orElse (← prop led "current_hash") (.str ""))

/-- `computeInstanceRoot`. -/
def computeInstanceRoot (ledger : List Json) : Option String := do
  let hashes ← ledger.mapM entryHash
  let texts ← hashes.mapM toStr
  pure (sha256Hex (String.join texts))

/-- Check 2. -/
def checkPackageHash (pkg : Json) (ledger : List Json) : Option Check := do
  let stored ← prop pkg "package_hash"
  let name := "Package untampered"
  if truthy stored then
    let comp := computePackageHash ledger
    if stored = some (.str comp) then
      pure ⟨name, true, "SHA-256 of full ledger matches package_hash", ""⟩
    else do
      let text ← slice 32 (stored.getD .null)
      pure ⟨name, false, "", "Hash mismatch — package was modified after export.\nstored:   " ++ text ++
        "...\ncomputed: " ++ ProvableAi.slice 32 comp ++ "..."⟩
  else pure ⟨name, true, "No package_hash — skipped (older export format)", ""⟩

/-- The loop of check 3; `prevHash` is `null` before the first entry.  The failure,
if there is one. -/
def chainLoop : Option Json → List Json → Option (Option String)
  | _, [] => some none
  | prevHash, entry :: rest => do
    let led := orElse (← prop entry "ledger") (.obj [])
    let stored := orElse (← prop led "current_hash") (.str "")
    let prevF := orElse (← prop led "previous_hash") (.str genesisHash)
    let seqId ← prop led "sequence_id"
    let comp ← recomputeHash entry
    if stored ≠ .str comp then do
      let seqText ← template seqId
      let text ← slice 32 stored
      pure (some ("Hash mismatch at seq=" ++ seqText ++ ".\nProof content was modified after signing.\nstored:   " ++
        text ++ "...\ncomputed: " ++ ProvableAi.slice 32 comp ++ "..."))
    else if prevF ≠ prevHash.getD (.str genesisHash) then do
      let seqText ← template seqId
      pure (some ("Chain broken at seq=" ++ seqText ++ ".\nprevious_hash does not match prior proof."))
    else chainLoop (some stored) rest

/-- `seqIds`. -/
def seqId (e : Json) : Option (Option Json) := do
  let led := orElse (← prop e "ledger") (.obj [])
  prop led "sequence_id"

/-- `rng`. -/
def seqRange (ledger : List Json) : Option String := do
  let seqIds ← ledger.mapM seqId
  let first ← template (seqIds.head?.getD none)
  if seqIds.length > 1 then
    let last ← template (seqIds.getLast?.getD none)
    pure ("seq " ++ first ++ "→" ++ last)
  else pure ("seq " ++ first)

/-- `n` proofs, with the plural. -/
def proofCount (n : ℕ) : String := toString n ++ (if n > 1 then " proofs" else " proof")

/-- `(e.k||{}).f||d`. -/
def field (e : Json) (k f : String) (d : String) : Option Json := do
  let v := orElse (← prop e k) (.obj [])
  pure (orElse (← prop v f) (.str d))

/-- Check 3, with what it adds to the metadata. -/
def checkChain (ledger : List Json) : Option (Check × List (String × Json)) := do
  let failure ← chainLoop none ledger
  let name := "Chain valid"
  match failure with
  | some reason => pure (⟨name, false, "", reason⟩, [])
  | none => do
    let rng ← seqRange ledger
    let first := ledger.head?.getD .null
    let last := ledger.getLast?.getD .null
    let finalState ← field last "decision" "to_state" "unknown"
    let firstTs ← field first "ledger" "timestamp" ""
    let lastTs ← field last "ledger" "timestamp" ""
    let model ← field first "governance" "model_version" ""
    let agent ← field first "governance" "agent_version" ""
    let policy ← field first "governance" "policy_version" ""
    pure (⟨name, true, proofCount ledger.length ++ ", " ++ rng, ""⟩,
      [("final_state", finalState), ("seq_range", .str rng), ("first_ts", firstTs), ("last_ts", lastTs),
        ("model", model), ("agent", agent), ("policy", policy)])

/-- Check 4: the key and the signature are there, and the root matches. -/
def checkSigner (pkg : Json) (ledger : List Json) : Option (Check × List (String × Json)) := do
  let pubKey := orElse (← prop pkg "public_key") (.str "")
  let sigHex := orElse (← prop pkg "signature") (.str "")
  let proof := orElse (← prop pkg "proof") (.obj [])
  let storedRoot := orElse (← prop proof "instance_root") (.str "")
  let name := "Original signer verified"
  if !truthy (some pubKey) || !truthy (some sigHex) then
    pure (⟨name, false, "", "Missing public_key or signature."⟩, [])
  else do
    let compRoot ← computeInstanceRoot ledger
    if truthy (some storedRoot) && storedRoot ≠ .str compRoot then do
      let text ← slice 32 storedRoot
      pure (⟨name, false, "", "Instance root mismatch.\nstored:   " ++ text ++ "...\ncomputed: " ++
        ProvableAi.slice 32 compRoot ++ "..."⟩, [])
    else do
      let key ← slice 16 pubKey
      pure (⟨name, true, "Signed by env-" ++ key ++ " — signature mathematically valid", ""⟩,
        [("key_id", .str ("env-" ++ key)), ("public_key", pubKey)])

/-- `verifyPackage`. -/
def verifyPackage (pkg : Json) : Option (Bool × List Check × List (String × Json)) := do
  let name := "Package structure valid"
  let type ← prop pkg "type"
  if type ≠ some (.str packageType) then do
    let text ← template type
    pure (false, [⟨name, false, "", "Unknown type: \"" ++ text ++ "\". Expected \"provable-ai-proof-package\"."⟩], [])
  else do
    let proof := orElse (← prop pkg "proof") (.obj [])
    match orElse (← prop proof "ledger") (.arr []) with
    | .arr (e :: es) => do
      let instanceId := orElse (← prop proof "instance_id") (.str "unknown")
      let c2 ← checkPackageHash pkg (e :: es)
      let (c3, meta3) ← checkChain (e :: es)
      let (c4, meta4) ← checkSigner pkg (e :: es)
      let checks := [⟨name, true, proofCount (e :: es).length ++ " in package", ""⟩, c2, c3, c4]
      pure (checks.all Check.passed, checks,
        [("ledger", .arr (e :: es)), ("instance_id", instanceId)] ++ meta3 ++ meta4)
    | _ => pure (false, [⟨name, false, "", "proof.ledger is empty."⟩], [])

/-! ### The encodings agree -/

theorem map_toNat_lt {xs ys : List Char} : xs.map Char.toNat < ys.map Char.toNat ↔ xs < ys := by
  induction xs generalizing ys with
  | nil => cases ys <;> simp
  | cons x xs ih =>
    cases ys with
    | nil => simp
    | cons y ys =>
      rw [List.map_cons, List.map_cons, List.cons_lt_cons_iff, List.cons_lt_cons_iff, ih]
      exact or_congr Iff.rfl (and_congr_left fun _ => Char.toNat_inj)

theorem utf16_of_bmp {s : String} (h : isBmp s = true) : utf16 s = s.toList.map Char.toNat := by
  rw [isBmp, List.all_eq_true] at h
  rw [utf16, List.map_eq_flatMap]
  refine List.flatMap_congr fun c hc => ?_
  rw [if_pos (by simpa using h c hc)]

/-- On the basic plane the code units are ordered as the code points. -/
theorem utf16_le_iff {s t : String} (hs : isBmp s = true) (ht : isBmp t = true) : utf16 s ≤ utf16 t ↔ s ≤ t := by
  rw [utf16_of_bmp hs, utf16_of_bmp ht, ← not_lt, ← not_lt, map_toNat_lt, String.lt_iff_toList_lt]

theorem sortKeys_eq {α : Type*} {kvs : List (String × α)} (h : ∀ kv ∈ kvs, isBmp kv.1 = true) :
    sortKeys kvs = Json.sortKeys kvs := by
  have hm := List.map_insertionSort (fun a b : String × α => utf16 a.1 ≤ utf16 b.1) (fun a b => a.1 ≤ b.1) id kvs
    fun a ha b hb => utf16_le_iff (h a ha) (h b hb)
  simpa [sortKeys, Json.sortKeys] using hm

theorem canonItems_eq (xs : List Json) : canonItems xs = xs.map canon := by
  induction xs with
  | nil => rfl
  | cons x xs ih => simp [canonItems, ih]

theorem canonMembers_eq (kvs : List (String × Json)) : canonMembers kvs = kvs.map fun kv => (kv.1, canon kv.2) := by
  induction kvs with
  | nil => rfl
  | cons kv kvs ih => obtain ⟨k, x⟩ := kv; simp [canonMembers, ih]

theorem canon_eq {v : Json} (h : v.portable = true) : canon v = v.canon := by
  induction v using Json.induct with
  | arr xs ih =>
    rw [canon, canonItems_eq, Json.canon_arr]
    exact congrArg Json.arr (List.map_congr_left fun x hx => ih x hx ((Json.portable_arr xs).1 h x hx))
  | obj kvs ih =>
    have hk := (Json.portable_obj kvs).1 h
    have hm : kvs.map (fun kv => (kv.1, canon kv.2)) = kvs.map fun kv => (kv.1, kv.2.canon) :=
      List.map_congr_left fun kv hkv => by rw [ih kv hkv (hk kv hkv).2]
    rw [canon, canonMembers_eq, hm, Json.canon_obj, sortKeys_eq]
    intro lv hlv
    obtain ⟨kv, hkv, rfl⟩ := List.mem_map.1 hlv
    exact (hk kv hkv).1
  | _ => rfl

/-- **The two encoders agree** on portable values. -/
theorem canonicalJSON_eq {v : Json} (h : v.portable = true) : canonicalJSON v = dumps v := by
  rw [canonicalJSON, canon_eq h, dumps]

/-! ### Packages that are well typed -/

/-- The sections that are hashed. -/
def sections : List String := ["decision", "decision_context", "governance", "determinism"]

/-- An entry with a ledger block of non-empty hashes and a positive `sequence_id`, and
four non-empty sections. -/
structure WellTypedEntry (e : Json) : Prop where
  ledger : ∃ kvs, e.get? "ledger" = some (.obj kvs)
  currentHash : ∃ h, (entryBlock e).get? "current_hash" = some (.str h) ∧ h ≠ ""
  previousHash : ∃ h, (entryBlock e).get? "previous_hash" = some (.str h) ∧ h ≠ ""
  sequenceId : ∃ n, (entryBlock e).get? "sequence_id" = some (.int n) ∧ 0 < n
  sections : ∀ k ∈ sections, ∃ kvs, e.get? k = some (.obj kvs) ∧ kvs ≠ []

/-- A well-typed package. -/
structure WellTyped (j : Json) : Prop where
  wf : j.wf = true
  portable : j.portable = true
  isObj : j.isObj = true
  proof : ∃ kvs, j.get? "proof" = some (.obj kvs)
  ledger : ∃ es, (proofBlock j).get? "ledger" = some (.arr es) ∧ ∀ e ∈ es, WellTypedEntry e

theorem prop_of_isObj {v : Json} (h : v.isObj = true) (k : String) : prop v k = some (v.get? k) := by
  rw [prop, if_neg]
  rintro rfl
  cases h

theorem orElse_of_truthy {v d : Json} (h : truthy (some v) = true) : orElse (some v) d = v := if_pos h

theorem truthy_obj (kvs : List (String × Json)) : truthy (some (.obj kvs)) = true := rfl

theorem truthy_str {s : String} (h : s ≠ "") : truthy (some (.str s)) = true := by simpa [truthy] using h

namespace WellTypedEntry

variable {e : Json}

theorem isObj (h : WellTypedEntry e) : e.isObj = true := by
  obtain ⟨kvs, hk⟩ := h.ledger
  exact Json.isObj_of_get? hk

theorem block (h : WellTypedEntry e) : e.get? "ledger" = some (entryBlock e) ∧ (entryBlock e).isObj = true := by
  obtain ⟨kvs, hk⟩ := h.ledger
  rw [entryBlock, hk]
  exact ⟨rfl, rfl⟩

theorem readable (h : WellTypedEntry e) : Readable e := ⟨h.isObj, h.block.2⟩

theorem prop_ledger (h : WellTypedEntry e) : prop e "ledger" = some (some (entryBlock e)) := by
  rw [prop_of_isObj h.isObj, h.block.1]

theorem orElse_ledger (h : WellTypedEntry e) : orElse (some (entryBlock e)) (.obj []) = entryBlock e := by
  obtain ⟨kvs, hk⟩ := h.ledger
  rw [entryBlock, hk]
  exact orElse_of_truthy (truthy_obj kvs)

theorem prop_block (h : WellTypedEntry e) (k : String) : prop (entryBlock e) k = some ((entryBlock e).get? k) :=
  prop_of_isObj h.block.2 k

theorem prop_section (h : WellTypedEntry e) {k : String} (hk : k ∈ Browser.sections) :
    ∃ v, prop e k = some v ∧ orElse v (.obj []) = entrySection e k := by
  obtain ⟨kvs, hg, -⟩ := h.sections k hk
  refine ⟨some (.obj kvs), by rw [prop_of_isObj h.isObj, hg], ?_⟩
  rw [orElse_of_truthy (truthy_obj kvs), entrySection, hg]
  rfl

theorem previousHash_eq (h : WellTypedEntry e) (d d' : String) :
    orElse ((entryBlock e).get? "previous_hash") (.str d) = ((entryBlock e).get? "previous_hash").getD (.str d') := by
  obtain ⟨t, hg, ht⟩ := h.previousHash
  rw [hg, orElse_of_truthy (truthy_str ht)]
  rfl

theorem currentHash_eq (h : WellTypedEntry e) :
    orElse ((entryBlock e).get? "current_hash") (.str "") = storedHash e := by
  obtain ⟨t, hg, ht⟩ := h.currentHash
  rw [storedHash, hg, orElse_of_truthy (truthy_str ht)]
  rfl

theorem sequenceId_eq (h : WellTypedEntry e) :
    orElse ((entryBlock e).get? "sequence_id") (.int 0) = ((entryBlock e).get? "sequence_id").getD (.int 0) := by
  obtain ⟨n, hg, hn⟩ := h.sequenceId
  rw [hg, orElse_of_truthy (by simpa [truthy] using hn.ne')]
  rfl

/-- What is hashed of the entry is portable. -/
theorem content_portable (h : WellTypedEntry e) (hp : e.portable = true) : (entryContent e).portable = true := by
  have hs : ∀ k ∈ Browser.sections, (entrySection e k).portable = true := by
    intro k hk
    obtain ⟨kvs, hg, -⟩ := h.sections k hk
    rw [entrySection, hg]
    exact Json.portable_of_get? hp hg
  have hb : (entryBlock e).portable = true := Json.portable_of_get? hp h.block.1
  obtain ⟨t, hprev, -⟩ := h.previousHash
  obtain ⟨n, hseq, -⟩ := h.sequenceId
  have hpp := Json.portable_of_get? hb hprev
  have hpq := Json.portable_of_get? hb hseq
  rw [entryContent, hashedContent, Json.portable_obj, hprev, hseq]
  simp only [List.forall_mem_cons, Option.getD_some, hpp, hpq, hs _ (show "decision" ∈ Browser.sections by decide),
    hs _ (show "decision_context" ∈ Browser.sections by decide), hs _ (show "governance" ∈ Browser.sections by decide),
    hs _ (show "determinism" ∈ Browser.sections by decide), and_true]
  decide

/-- **The two hashes of an entry agree.** -/
theorem recomputeHash_eq (h : WellTypedEntry e) (hp : e.portable = true) :
    recomputeHash e = some (contentHash e) := by
  obtain ⟨v₁, h₁, e₁⟩ := h.prop_section (k := "decision") (by decide)
  obtain ⟨v₂, h₂, e₂⟩ := h.prop_section (k := "decision_context") (by decide)
  obtain ⟨v₃, h₃, e₃⟩ := h.prop_section (k := "governance") (by decide)
  obtain ⟨v₄, h₄, e₄⟩ := h.prop_section (k := "determinism") (by decide)
  simp only [recomputeHash, h.prop_ledger, h.orElse_ledger, h.prop_block, h₁, h₂, h₃, h₄, e₁, e₂, e₃, e₄,
    h.previousHash_eq "" "", h.sequenceId_eq, Option.bind_eq_bind, Option.bind_some, Option.pure_def]
  rw [← entryContent, canonicalJSON_eq (h.content_portable hp), contentHash]

theorem entryHash_eq (h : WellTypedEntry e) : entryHash e = some (storedHash e) := by
  simp only [entryHash, h.prop_ledger, h.orElse_ledger, h.prop_block, h.currentHash_eq, Option.bind_eq_bind,
    Option.bind_some, Option.pure_def]

theorem storedHash_str (h : WellTypedEntry e) : ∃ t, storedHash e = .str t ∧ t ≠ "" := by
  obtain ⟨t, hg, ht⟩ := h.currentHash
  exact ⟨t, by rw [storedHash, hg]; rfl, ht⟩

end WellTypedEntry

/-! ### The checks side by side -/

section

variable {ed : Ed25519} {j : Json} {es : List Json}

/-- The two loops over well-typed entries return, and one finds a failure exactly
where the other does. -/
theorem chainLoop_agree (h : ∀ e ∈ es, WellTypedEntry e) (hp : ∀ e ∈ es, e.portable = true) {v : Json}
    {w : Option Json} (hvw : (if v.truthy then v else .str genesisHash) = w.getD (.str genesisHash)) :
    ∃ r r', ProvableAi.chainLoop v es = .ok r ∧ chainLoop w es = some r' ∧ r.isSome = r'.isSome := by
  induction es generalizing v w with
  | nil => exact ⟨none, none, rfl, rfl, rfl⟩
  | cons e es ih =>
    have he := h e (by simp)
    obtain ⟨t, ht, htne⟩ := he.storedHash_str
    obtain ⟨n, hn, -⟩ := he.sequenceId
    have hblock : e.getD "ledger" (.obj []) = .ok (entryBlock e) := Json.getD_eq_ok.2 ⟨he.isObj, rfl⟩
    have hstored : (entryBlock e).getD "current_hash" (.str "") = .ok (.str t) :=
      Json.getD_eq_ok.2 ⟨he.block.2, ht⟩
    have hlink : (entryBlock e).getD "previous_hash" (.str genesisHash) = .ok (storedLink e) :=
      Json.getD_eq_ok.2 ⟨he.block.2, rfl⟩
    have hseq : (entryBlock e).getD "sequence_id" (.str "?") = .ok (.int n) :=
      Json.getD_eq_ok.2 ⟨he.block.2, by rw [hn]; rfl⟩
    have hhash : ProvableAi.recomputeHash e = .ok (contentHash e) := recomputeHash_eq_ok.2 ⟨he.readable, rfl⟩
    have hlink' : orElse ((entryBlock e).get? "previous_hash") (.str genesisHash) = storedLink e :=
      he.previousHash_eq genesisHash genesisHash
    have hcur : orElse ((entryBlock e).get? "current_hash") (.str "") = .str t := he.currentHash_eq.trans ht
    simp only [ProvableAi.chainLoop, chainLoop, hblock, hstored, hlink, hseq, hhash, ok_bind, he.prop_ledger,
      he.orElse_ledger, he.prop_block, hcur, hlink', he.recomputeHash_eq (hp e (by simp)), Option.bind_eq_bind,
      Option.bind_some, hn, hvw]
    by_cases hc : Json.str t = .str (contentHash e)
    · by_cases hl : storedLink e = w.getD (.str genesisHash)
      · simp only [if_pos hc, if_pos hl, if_neg (not_not.2 hc), if_neg (not_not.2 hl)]
        refine ih (fun f hf => h f (List.mem_cons_of_mem _ hf)) (fun f hf => hp f (List.mem_cons_of_mem _ hf)) ?_
        rw [if_pos (by simpa [Json.truthy] using htne), Option.getD_some]
      · simp only [if_pos hc, if_neg hl, if_neg (not_not.2 hc), if_pos hl]
        exact ⟨_, _, rfl, rfl, rfl⟩
    · simp only [if_neg hc, if_pos hc]
      exact ⟨_, _, rfl, rfl, rfl⟩

theorem field_returns {e : Json} {k : String} {kvs : List (String × Json)} (h : e.get? k = some (.obj kvs))
    (f d : String) : ∃ v, field e k f d = some v := by
  refine ⟨orElse ((Json.obj kvs).get? f) (.str d), ?_⟩
  simp only [field, prop_of_isObj (Json.isObj_of_get? h), h, orElse_of_truthy (truthy_obj kvs),
    prop_of_isObj (show (Json.obj kvs).isObj = true from rfl), Option.bind_eq_bind, Option.bind_some, Option.pure_def]

theorem mapM_some_map {α β : Type*} {f : α → Option β} {g : α → β} {xs : List α} (h : ∀ x ∈ xs, f x = some (g x)) :
    xs.mapM f = some (xs.map g) := by
  induction xs with
  | nil => rfl
  | cons x xs ih =>
    rw [List.mapM_cons, h x (by simp), ih fun y hy => h y (List.mem_cons_of_mem _ hy)]
    rfl

theorem seqRange_returns (hne : es ≠ []) (h : ∀ e ∈ es, WellTypedEntry e) : ∃ rng, seqRange es = some rng := by
  have hm : es.mapM seqId = some (es.map fun e => (entryBlock e).get? "sequence_id") := by
    refine mapM_some_map fun e he => ?_
    simp only [seqId, (h e he).prop_ledger, (h e he).orElse_ledger, (h e he).prop_block, Option.bind_eq_bind,
      Option.bind_some]
  obtain ⟨n, hn, -⟩ := (h _ (List.head_mem hne)).sequenceId
  obtain ⟨k, hk, -⟩ := (h _ (List.getLast_mem hne)).sequenceId
  simp only [seqRange, hm, List.head?_map, List.getLast?_map, List.head?_eq_some_head hne,
    List.getLast?_eq_some_getLast hne, Option.map_some, Option.getD_some, hn, hk, template, toStr,
    Option.bind_eq_bind, Option.bind_some]
  split_ifs <;> exact ⟨_, rfl⟩

/-- Check 3: both return, with one result. -/
theorem checkChain_agree (hne : es ≠ []) (h : ∀ e ∈ es, WellTypedEntry e) (hp : ∀ e ∈ es, e.portable = true) :
    ∃ c m c' m', ProvableAi.checkChain es = .ok (c, m) ∧ checkChain es = some (c', m') ∧
      c.name = "Chain valid" ∧ c'.name = "Chain valid" ∧ c.passed = c'.passed := by
  obtain ⟨r, r', hr, hr', hrr⟩ := chainLoop_agree h hp (v := .null) (w := none) rfl
  cases r with
  | some reason =>
    obtain ⟨reason', rfl⟩ := Option.isSome_iff_exists.1 hrr.symm
    simp only [ProvableAi.checkChain, checkChain, hr, hr', ok_bind, Option.bind_eq_bind, Option.bind_some]
    exact ⟨_, _, _, _, rfl, rfl, rfl, rfl, rfl⟩
  | none =>
    obtain rfl : r' = none := Option.isNone_iff_eq_none.1 (by simpa using hrr)
    have hl := h _ (List.getLast_mem hne)
    have hf := h _ (List.head_mem hne)
    obtain ⟨rng, hrng⟩ := seqRange_returns hne h
    -- the section that the final state is read from
    obtain ⟨dkvs, hdec, -⟩ := hl.sections "decision" (by decide)
    have hd : (lastDecision es).isObj = true := by
      rw [lastDecision, List.getLast?_eq_some_getLast hne, Option.getD_some, entrySection, hdec]
      rfl
    obtain ⟨detail, m, hpy⟩ := checkChain_returns hne ((chainLoop_eq_none rfl).1 hr) hd
    obtain ⟨gkvs, hgov, -⟩ := hf.sections "governance" (by decide)
    obtain ⟨v₁, h₁⟩ := field_returns hdec "to_state" "unknown"
    obtain ⟨v₂, h₂⟩ := field_returns hf.ledger.choose_spec "timestamp" ""
    obtain ⟨v₃, h₃⟩ := field_returns hl.ledger.choose_spec "timestamp" ""
    obtain ⟨v₄, h₄⟩ := field_returns hgov "model_version" ""
    obtain ⟨v₅, h₅⟩ := field_returns hgov "agent_version" ""
    obtain ⟨v₆, h₆⟩ := field_returns hgov "policy_version" ""
    simp only [checkChain, hr', hrng, List.head?_eq_some_head hne, List.getLast?_eq_some_getLast hne,
      Option.getD_some, h₁, h₂, h₃, h₄, h₅, h₆, Option.bind_eq_bind, Option.bind_some, Option.pure_def]
    exact ⟨_, _, _, _, hpy, rfl, rfl, rfl, rfl⟩

/-- Both compute one root. -/
theorem root_agree (h : ∀ e ∈ es, WellTypedEntry e) :
    ∃ root, instanceRoot es = .ok root ∧ computeInstanceRoot es = some root := by
  choose! t ht _ using fun e he => (h e he).storedHash_str
  have hpy : es.mapM ProvableAi.entryHash = .ok (es.map fun e => .str (t e)) :=
    mapM_ok_map _ fun e he => entryHash_eq_ok.2 ⟨(h e he).readable, ht e he⟩
  have hjs : es.mapM entryHash = some (es.map fun e => .str (t e)) :=
    mapM_some_map fun e he => by rw [(h e he).entryHash_eq, ht e he]
  have hjoin : joinStrs (es.map fun e => .str (t e)) = .ok (String.join (es.map t)) :=
    joinStrs_eq_ok.2 ⟨es.map t, by simp, rfl⟩
  have htexts : (es.map fun e => Json.str (t e)).mapM toStr = some (es.map t) := by
    rw [List.mapM_map]
    exact mapM_some_map fun e _ => rfl
  refine ⟨sha256Hex (String.join (es.map t)), ?_, ?_⟩
  · rw [instanceRoot, hpy, ok_bind, hjoin]
    rfl
  · simp only [computeInstanceRoot, hjs, htexts, Option.bind_eq_bind, Option.bind_some, Option.pure_def]

/-! What is false here is false in Python; `[]` and `{}` are false only there. -/

theorem truthy_of_py {v : Json} (h : v.truthy = true) : truthy (some v) = true := by
  cases v <;> simp_all [Json.truthy, truthy]

theorem truthy_textField (j : Json) (k : String) : truthy (some (textField j k)) = truthy (j.get? k) := by
  rw [textField]
  cases j.get? k <;> rfl

/-- A field that is read with the empty text as default. -/
theorem truthy_orElse (v : Option Json) : truthy (some (orElse v (.str ""))) = truthy v := by
  cases h : truthy v with
  | false => rw [orElse, if_neg (by simp [h])]; rfl
  | true =>
    cases v with
    | none => cases h
    | some w => rw [orElse_of_truthy h, h]

theorem orElse_textField {k : String} (h : truthy (some (textField j k)) = true) :
    orElse (j.get? k) (.str "") = textField j k := by
  rw [truthy_textField] at h
  rw [orElse, if_pos h, textField]

theorem pySlice_of_slice {n : ℕ} {v : Json} (h : (slice n v).isSome = true) : ∃ t, v.pySlice n = .ok t := by
  cases v with
  | str s => exact ⟨_, rfl⟩
  | arr xs => exact ⟨_, rfl⟩
  | _ => cases h

/-- When check 2 has one result: `package_hash` is false for both, or true for both and
`slice` can print it. -/
def HashAgrees (j : Json) : Prop :=
  truthy (some (textField j "package_hash")) = true →
    (textField j "package_hash").truthy = true ∧ (slice 32 (textField j "package_hash")).isSome = true

/-- Check 2. -/
theorem checkPackageHash_agree_iff (hj : j.isObj = true) (hp : (Json.arr es).portable = true) :
    (∃ c c', ProvableAi.checkPackageHash j es = .ok c ∧ checkPackageHash j es = some c' ∧ c.passed = c'.passed) ↔
      HashAgrees j := by
  obtain ⟨v, hv⟩ : ∃ v, v = textField j "package_hash" := ⟨_, rfl⟩
  have hget : j.getD "package_hash" (.str "") = .ok v := getD_textField.2 ⟨hj, hv.symm⟩
  have hcomp : computePackageHash es = packageHash es := by
    rw [computePackageHash, canonicalJSON_eq hp, packageHash]
  have htruthy : truthy (j.get? "package_hash") = truthy (some v) := by rw [hv, truthy_textField]
  simp only [ProvableAi.checkPackageHash, checkPackageHash, hget, ok_bind, prop_of_isObj hj, hcomp, htruthy,
    Option.bind_eq_bind, Option.bind_some, Option.pure_def, HashAgrees, ← hv]
  cases hjs : truthy (some v) with
  | false =>
    have hpy : v.truthy = false := by
      rw [← Bool.not_eq_true]
      exact fun h => absurd (truthy_of_py h) (by simp [hjs])
    simp only [hpy, Bool.false_eq_true, if_false, IsEmpty.forall_iff, iff_true]
    exact ⟨_, _, rfl, rfl, rfl⟩
  | true =>
    -- the field is there
    have hsome : j.get? "package_hash" = some v := by
      rw [hjs] at htruthy
      cases hg : j.get? "package_hash" with
      | none => rw [hg] at htruthy; cases htruthy
      | some w => rw [hv, textField, hg]; rfl
    simp only [hsome, Option.some.injEq, Option.getD_some, if_true, true_imp_iff]
    by_cases heq : v = .str (packageHash es)
    · have hpy : v.truthy = true := by rw [heq]; exact truthy_sha256Hex _
      have hsl : (slice 32 v).isSome = true := by rw [heq]; rfl
      simp only [hpy, if_pos heq, if_true, hsl, and_self, iff_true]
      exact ⟨_, _, rfl, rfl, rfl⟩
    · simp only [if_neg heq]
      cases hs : slice 32 v with
      | none =>
        refine ⟨?_, fun h => by cases h.2⟩
        rintro ⟨_, _, -, h, -⟩
        cases h
      | some t =>
        obtain ⟨u, hu⟩ := pySlice_of_slice (n := 32) (v := v) (by rw [hs]; rfl)
        cases hpy : v.truthy with
        | false =>
          simp [CheckResult.warn, pure, Except.pure]
        | true =>
          simp only [hu, ok_bind, if_true, Option.isSome_some, and_self, iff_true]
          exact ⟨_, _, rfl, rfl, rfl⟩

/-- When check 4 has one result, for the recomputed root.  Without a key or a signature
both fail.  Where the stored root is another one the browser fails if it can
print it, and so does Python unless it takes the root for none and the signature
verifies.  Otherwise the browser passes without looking at the signature. -/
def SignerAgrees (ed : Ed25519) (j : Json) (root : String) : Prop :=
  truthy (some (textField j "public_key")) = false ∨ truthy (some (textField j "signature")) = false ∨
    if truthy (some (textField (proofBlock j) "instance_root")) = true ∧
        textField (proofBlock j) "instance_root" ≠ .str root then
      (slice 32 (textField (proofBlock j) "instance_root")).isSome = true ∧
        ((textField j "public_key").truthy = false ∨ (textField j "signature").truthy = false ∨
          (textField (proofBlock j) "instance_root").truthy = true ∨
          verifyHexEd25519 ed (textField j "public_key") root (textField j "signature") = false)
    else verifyHexEd25519 ed (textField j "public_key") root (textField j "signature") = true

theorem verifyHexEd25519_str {pk sg : Json} {root : String} (h : verifyHexEd25519 ed pk root sg = true) :
    (∃ s, pk = .str s) ∧ ∃ s, sg = .str s := by
  unfold verifyHexEd25519 at h
  split at h
  · exact ⟨⟨_, rfl⟩, ⟨_, rfl⟩⟩
  · cases h

/-- A text is true in both languages alike. -/
theorem truthy_str_iff {s : String} : truthy (some (.str s)) = (Json.str s).truthy := rfl

/-- Check 4. -/
theorem checkSigner_agree_iff (hj : j.isObj = true) {kvs : List (String × Json)} (hproof : j.get? "proof" = some (.obj kvs))
    {root : String} (hpy : instanceRoot es = .ok root) (hjs : computeInstanceRoot es = some root) :
    (∃ c m c' m', ProvableAi.checkSigner ed j (proofBlock j) es = .ok (c, m) ∧ checkSigner j es = some (c', m') ∧
      c.passed = c'.passed) ↔ SignerAgrees ed j root := by
  have hpb : proofBlock j = .obj kvs := by rw [proofBlock, hproof]; rfl
  have hpobj : (proofBlock j).isObj = true := by rw [hpb]; rfl
  obtain ⟨pk, hpk⟩ : ∃ v, v = textField j "public_key" := ⟨_, rfl⟩
  obtain ⟨sg, hsg⟩ : ∃ v, v = textField j "signature" := ⟨_, rfl⟩
  obtain ⟨st, hst⟩ : ∃ v, v = textField (proofBlock j) "instance_root" := ⟨_, rfl⟩
  have gpk : j.getD "public_key" (.str "") = .ok pk := getD_textField.2 ⟨hj, hpk.symm⟩
  have gsg : j.getD "signature" (.str "") = .ok sg := getD_textField.2 ⟨hj, hsg.symm⟩
  have gst : (proofBlock j).getD "instance_root" (.str "") = .ok st := getD_textField.2 ⟨hpobj, hst.symm⟩
  have tpk : truthy (some (orElse (j.get? "public_key") (.str ""))) = truthy (some pk) := by
    rw [truthy_orElse, hpk, truthy_textField]
  have tsg : truthy (some (orElse (j.get? "signature") (.str ""))) = truthy (some sg) := by
    rw [truthy_orElse, hsg, truthy_textField]
  have tst : truthy (some (orElse ((proofBlock j).get? "instance_root") (.str ""))) = truthy (some st) := by
    rw [truthy_orElse, hst, truthy_textField]
  have opr : orElse (j.get? "proof") (.obj []) = proofBlock j := by
    rw [hproof, orElse_of_truthy (truthy_obj kvs), hpb]
  simp only [ProvableAi.checkSigner, checkSigner, gpk, gsg, gst, ok_bind, prop_of_isObj hj, opr, prop_of_isObj hpobj,
    hpy, hjs, Option.bind_eq_bind, Option.bind_some, Option.pure_def, SignerAgrees, ← hpk, ← hsg, ← hst, tpk, tsg, tst]
  cases jpk : truthy (some pk) with
  | false =>
    have ppk : pk.truthy = false := by
      rw [← Bool.not_eq_true]
      exact fun h => absurd (truthy_of_py h) (by simp [jpk])
    simp only [ppk, Bool.not_false, Bool.true_or, if_true, true_or, iff_true]
    exact ⟨_, _, _, _, rfl, rfl, rfl⟩
  | true =>
  cases jsg : truthy (some sg) with
  | false =>
    have psg : sg.truthy = false := by
      rw [← Bool.not_eq_true]
      exact fun h => absurd (truthy_of_py h) (by simp [jsg])
    simp only [psg, Bool.not_false, Bool.or_true, if_true, true_or, or_true, iff_true]
    exact ⟨_, _, _, _, rfl, rfl, rfl⟩
  | true =>
  have opk : orElse (j.get? "public_key") (.str "") = pk := by
    rw [hpk]
    exact orElse_textField (by rw [← hpk, jpk])
  simp only [Bool.not_true, Bool.or_self, Bool.false_eq_true, if_false, false_or, opk, reduceCtorEq]
  by_cases hmis : truthy (some st) = true ∧ st ≠ .str root
  · have ost : orElse ((proofBlock j).get? "instance_root") (.str "") = st := by
      rw [hst]
      exact orElse_textField (by rw [← hst, hmis.1])
    have hjmis : (truthy (some st) && decide (st ≠ .str root)) = true := by simp [hmis.1, hmis.2]
    simp only [ost, hjmis, if_true, if_pos hmis]
    cases hs : slice 32 st with
    | none =>
      refine ⟨?_, fun h => by cases h.1⟩
      rintro ⟨_, _, _, _, -, h, -⟩
      cases h
    | some t =>
      obtain ⟨u, hu⟩ := pySlice_of_slice (n := 32) (v := st) (by rw [hs]; rfl)
      simp only [Option.isSome_some, true_and, hmis.2, ne_eq, not_false_eq_true, decide_true, Bool.and_true]
      -- Python fails too, unless it takes the root for none and the signature verifies
      cases ppk : pk.truthy <;> cases psg : sg.truthy <;> cases pst : st.truthy <;>
        cases hv : verifyHexEd25519 ed pk root sg <;>
        simp [hu, ok_bind, pure, Except.pure, CheckResult.fail, CheckResult.ok, CheckResult.new]
  · have hpmis : (st.truthy && decide (st ≠ .str root)) = false := by
      rw [← Bool.not_eq_true, Bool.and_eq_true, decide_eq_true_iff]
      exact fun h => hmis ⟨truthy_of_py h.1, h.2⟩
    have hjmis : (truthy (some st) &&
        decide (orElse ((proofBlock j).get? "instance_root") (.str "") ≠ .str root)) = false := by
      rw [← Bool.not_eq_true, Bool.and_eq_true, decide_eq_true_iff]
      rintro ⟨ht, hne⟩
      have ost : orElse ((proofBlock j).get? "instance_root") (.str "") = st := by
        rw [hst]
        exact orElse_textField (by rw [← hst, ht])
      exact hmis ⟨ht, ost ▸ hne⟩
    simp only [hpmis, hjmis, Bool.false_eq_true, if_false, if_neg hmis]
    cases hv : verifyHexEd25519 ed pk root sg with
    | true =>
      obtain ⟨⟨s₁, rfl⟩, s₂, rfl⟩ := verifyHexEd25519_str hv
      rw [truthy_str_iff] at jpk jsg
      simp only [jpk, jsg, Bool.not_true, Bool.or_self, Bool.false_eq_true, if_false, if_true, iff_true]
      exact ⟨_, _, _, _, rfl, rfl, rfl⟩
    | false =>
      refine ⟨?_, fun h => by cases h⟩
      rintro ⟨c, m, c', m', hc, hc', heq⟩
      have hpass : c'.passed = true := by
        cases hs : slice 16 pk with
        | none => rw [hs] at hc'; cases hc'
        | some t =>
          rw [hs] at hc'
          rw [← (Prod.mk.inj (Option.some.inj hc')).1]
      have hfail : c.passed = false := by
        simp only [Bool.false_eq_true, if_false] at hc
        split_ifs at hc <;> rw [← (Prod.mk.inj (Except.ok.inj hc)).1] <;> rfl
      rw [hpass, hfail] at heq
      cases heq

/-! ### The two programs -/

/-- What `verify_package` returns of its checks: the verdict, and the name and the result
of each. -/
def cliView (ed : Ed25519) (j : Json) : Option (Bool × List (String × Bool)) :=
  match ProvableAi.verifyPackage ed j with
  | .ok (passed, checks, _) => some (passed, checks.map fun c => (c.name, c.passed))
  | .error _ => none

/-- The same of the browser's verifier. -/
def browserView (j : Json) : Option (Bool × List (String × Bool)) :=
  (verifyPackage j).map fun r => (r.1, r.2.1.map fun c => (c.name, c.passed))

/-- The results where the structure is valid. -/
def results (c2 c3 c4 : Bool) : Bool × List (String × Bool) :=
  (c2 && (c3 && c4), [("Package structure valid", true), ("Package untampered", c2), ("Chain valid", c3),
    ("Original signer verified", c4)])

theorem checkPackageHash_name {c : CheckResult} (h : ProvableAi.checkPackageHash j es = .ok c) :
    c.name = "Package untampered" := by
  simp only [ProvableAi.checkPackageHash, bind_eq_ok_iff, getD_textField] at h
  obtain ⟨stored, -, h⟩ := h
  split_ifs at h
  · rw [← Except.ok.inj h]; rfl
  · obtain ⟨t, -, h⟩ := bind_eq_ok_iff.1 h
    rw [← Except.ok.inj h]; rfl
  · rw [← Except.ok.inj h]; rfl

theorem checkPackageHash_browser_name {c : Check} (h : checkPackageHash j es = some c) :
    c.name = "Package untampered" := by
  simp only [checkPackageHash, Option.bind_eq_bind, Option.bind_eq_some_iff] at h
  obtain ⟨stored, -, h⟩ := h
  split_ifs at h
  · rw [← Option.some.inj h]
  · obtain ⟨t, -, h⟩ := Option.bind_eq_some_iff.1 h
    rw [← Option.some.inj h]
  · rw [← Option.some.inj h]

theorem checkSigner_name {pb : Json} {c : CheckResult} {m : List (String × Json)}
    (h : ProvableAi.checkSigner ed j pb es = .ok (c, m)) : c.name = "Original signer verified" := by
  simp only [ProvableAi.checkSigner, bind_eq_ok_iff, getD_textField] at h
  obtain ⟨_, -, _, -, _, -, h⟩ := h
  split_ifs at h
  · rw [← (Prod.mk.inj (Except.ok.inj h)).1]; rfl
  · obtain ⟨r, -, h⟩ := bind_eq_ok_iff.1 h
    split_ifs at h
    · obtain ⟨t, -, h⟩ := bind_eq_ok_iff.1 h
      rw [← (Prod.mk.inj (Except.ok.inj h)).1]; rfl
    · rw [← (Prod.mk.inj (Except.ok.inj h)).1]; rfl
    · rw [← (Prod.mk.inj (Except.ok.inj h)).1]; rfl

theorem checkSigner_browser_name {c : Check} {m : List (String × Json)} (h : checkSigner j es = some (c, m)) :
    c.name = "Original signer verified" := by
  simp only [checkSigner, Option.bind_eq_bind, Option.bind_eq_some_iff] at h
  obtain ⟨_, -, _, -, _, -, _, -, h⟩ := h
  split_ifs at h
  · rw [← (Prod.mk.inj (Option.some.inj h)).1]
  · obtain ⟨r, -, h⟩ := Option.bind_eq_some_iff.1 h
    split_ifs at h
    · obtain ⟨t, -, h⟩ := Option.bind_eq_some_iff.1 h
      rw [← (Prod.mk.inj (Option.some.inj h)).1]
    · obtain ⟨t, -, h⟩ := Option.bind_eq_some_iff.1 h
      rw [← (Prod.mk.inj (Option.some.inj h)).1]

/-- The command line's results, where the structure is valid. -/
theorem cliView_eq_some {e : Json} (hj : j.isObj = true) (ht : j.get? "type" = some (.str packageType))
    (hp : (proofBlock j).isObj = true) (hl : (proofBlock j).get? "ledger" = some (.arr (e :: es)))
    {r : Bool × List (String × Bool)} {c3 : CheckResult} {m3 : List (String × Json)}
    (h3 : ProvableAi.checkChain (e :: es) = .ok (c3, m3)) (hn3 : c3.name = "Chain valid") :
    cliView ed j = some r ↔ ∃ c2 c4 m4, ProvableAi.checkPackageHash j (e :: es) = .ok c2 ∧
      ProvableAi.checkSigner ed j (proofBlock j) (e :: es) = .ok (c4, m4) ∧
      r = results c2.passed c3.passed c4.passed := by
  have htype : j.getD "type" .null = .ok (.str packageType) := Json.getD_eq_ok.2 ⟨hj, by rw [ht]; rfl⟩
  have hproof : j.getD "proof" (.obj []) = .ok (proofBlock j) := Json.getD_eq_ok.2 ⟨hj, rfl⟩
  have hledger : (proofBlock j).getD "ledger" (.arr []) = .ok (.arr (e :: es)) :=
    Json.getD_eq_ok.2 ⟨hp, by rw [hl]; rfl⟩
  have hid : (proofBlock j).getD "instance_id" (.str "unknown") =
      .ok (((proofBlock j).get? "instance_id").getD (.str "unknown")) := Json.getD_eq_ok.2 ⟨hp, rfl⟩
  simp only [cliView, ProvableAi.verifyPackage, htype, hproof, hledger, hid, h3, ok_bind, ne_eq, not_true_eq_false,
    if_false]
  cases h2 : ProvableAi.checkPackageHash j (e :: es) with
  | error x => simp [bind, Except.bind]
  | ok c2 =>
    cases h4 : ProvableAi.checkSigner ed j (proofBlock j) (e :: es) with
    | error x => simp [bind, Except.bind]
    | ok c4m =>
      obtain ⟨c4, m4⟩ := c4m
      have hn2 := checkPackageHash_name h2
      have hn4 := checkSigner_name h4
      simp only [ok_bind, pure, Except.pure, Except.ok.injEq, Prod.mk.injEq, List.map_cons, List.map_nil,
        List.all_cons, List.all_nil, hn2, hn3, hn4, Option.some.injEq]
      constructor
      · rintro rfl
        exact ⟨c2, c4, m4, rfl, ⟨rfl, rfl⟩, by simp [results, CheckResult.ok, CheckResult.new]⟩
      · rintro ⟨_, _, _, rfl, ⟨rfl, rfl⟩, rfl⟩
        simp [results, CheckResult.ok, CheckResult.new]

/-- The browser's results, where the structure is valid. -/
theorem browserView_eq_some {e : Json} (hj : j.isObj = true) (ht : j.get? "type" = some (.str packageType))
    {kvs : List (String × Json)} (hp : j.get? "proof" = some (.obj kvs))
    (hl : (proofBlock j).get? "ledger" = some (.arr (e :: es))) {r : Bool × List (String × Bool)} {c3 : Check}
    {m3 : List (String × Json)} (h3 : checkChain (e :: es) = some (c3, m3)) (hn3 : c3.name = "Chain valid") :
    browserView j = some r ↔ ∃ c2 c4 m4, checkPackageHash j (e :: es) = some c2 ∧
      checkSigner j (e :: es) = some (c4, m4) ∧ r = results c2.passed c3.passed c4.passed := by
  have hpb : proofBlock j = .obj kvs := by rw [proofBlock, hp]; rfl
  have opr : orElse (j.get? "proof") (.obj []) = proofBlock j := by
    rw [hp, orElse_of_truthy (truthy_obj kvs), hpb]
  have hpobj : (proofBlock j).isObj = true := by rw [hpb]; rfl
  have oled : orElse ((proofBlock j).get? "ledger") (.arr []) = .arr (e :: es) := by
    rw [hl]
    exact orElse_of_truthy rfl
  simp only [browserView, verifyPackage, prop_of_isObj hj, ht, opr, prop_of_isObj hpobj, oled, h3,
    Option.bind_eq_bind, Option.bind_some, ne_eq, not_true_eq_false, if_false]
  cases h2 : checkPackageHash j (e :: es) with
  | none => simp
  | some c2 =>
    cases h4 : checkSigner j (e :: es) with
    | none => simp
    | some c4m =>
      obtain ⟨c4, m4⟩ := c4m
      have hn2 := checkPackageHash_browser_name h2
      have hn4 := checkSigner_browser_name h4
      simp only [Option.bind_some, Option.pure_def, Option.map_some, List.map_cons, List.map_nil, List.all_cons,
        List.all_nil, hn2, hn3, hn4, Option.some.injEq, Prod.mk.injEq]
      constructor
      · rintro rfl
        exact ⟨c2, c4, m4, rfl, ⟨rfl, rfl⟩, by simp [results]⟩
      · rintro ⟨_, _, _, rfl, ⟨rfl, rfl⟩, rfl⟩
        simp [results]

/-- The command line refuses a signature that does not verify. -/
theorem checkSigner_refuses {pb : Json} {root : String} (hj : j.isObj = true) (hpb : pb.isObj = true)
    (hroot : instanceRoot es = .ok root) (hpk : (textField j "public_key").truthy = true)
    (hsg : (textField j "signature").truthy = true)
    (hsr : (textField pb "instance_root").truthy = true → textField pb "instance_root" = .str root)
    (hv : verifyHexEd25519 ed (textField j "public_key") root (textField j "signature") = false) :
    ∃ c m, ProvableAi.checkSigner ed j pb es = .ok (c, m) ∧ c.passed = false := by
  have hmiss : ¬ ((!(textField j "public_key").truthy || !(textField j "signature").truthy) = true) := by
    simp [hpk, hsg]
  have hmis : ¬ (((textField pb "instance_root").truthy &&
      decide (textField pb "instance_root" ≠ .str root)) = true) := by simpa using hsr
  have hver : ¬ (verifyHexEd25519 ed (textField j "public_key") root (textField j "signature") = true) := by simp [hv]
  simp only [ProvableAi.checkSigner, getD_textField.2 ⟨hj, rfl⟩, getD_textField.2 ⟨hpb, rfl⟩, ok_bind, hroot,
    if_neg hmiss, if_neg hmis, if_neg hver]
  exact ⟨_, _, rfl, rfl⟩

/-- The browser passes any signature. -/
theorem checkSigner_passes {kvs : List (String × Json)} {pk sg root : String} (hj : j.isObj = true)
    (hproof : j.get? "proof" = some (.obj kvs)) (hpk : j.get? "public_key" = some (.str pk)) (hpkne : pk ≠ "")
    (hsg : j.get? "signature" = some (.str sg)) (hsgne : sg ≠ "")
    (hroot : (Json.obj kvs).get? "instance_root" = some (.str root)) (hjs : computeInstanceRoot es = some root) :
    ∃ c m, checkSigner j es = some (c, m) ∧ c.passed = true := by
  have hmis : (truthy (some (orElse (some (.str root)) (.str ""))) &&
      decide (orElse (some (.str root)) (.str "") ≠ .str root)) = false := by
    rw [truthy_orElse]
    cases ht : truthy (some (.str root)) with
    | true => simp [orElse_of_truthy ht]
    | false => rfl
  simp only [checkSigner, prop_of_isObj hj, hproof, hpk, hsg, orElse_of_truthy (truthy_obj kvs),
    orElse_of_truthy (truthy_str hpkne), orElse_of_truthy (truthy_str hsgne), truthy_str hpkne, truthy_str hsgne,
    prop_of_isObj (show (Json.obj kvs).isObj = true from rfl), hroot, hjs, hmis, Option.bind_eq_bind,
    Option.bind_some, Bool.not_true, Bool.or_self, Bool.false_eq_true, if_false, slice, Option.pure_def]
  exact ⟨_, _, rfl, rfl⟩

/-- When the two programs have one result: the browser can print a type that is not the
package's, and where there are entries the last two checks agree. -/
def Comparable (ed : Ed25519) (j : Json) : Prop :=
  (j.get? "type" ≠ some (.str packageType) → (template (j.get? "type")).isSome = true) ∧
    (j.get? "type" = some (.str packageType) → ∀ es root, (proofBlock j).get? "ledger" = some (.arr es) → es ≠ [] →
      instanceRoot es = .ok root → HashAgrees j ∧ SignerAgrees ed j root)

/-- A type that is not the package's. -/
theorem views_of_type (hj : j.isObj = true) (ht : j.get? "type" ≠ some (.str packageType)) :
    cliView ed j = some (false, [("Package structure valid", false)]) ∧
      browserView j = (template (j.get? "type")).map fun _ => (false, [("Package structure valid", false)]) := by
  have htype : j.getD "type" .null = .ok ((j.get? "type").getD .null) := Json.getD_eq_ok.2 ⟨hj, rfl⟩
  have hne : (j.get? "type").getD .null ≠ .str packageType := by
    cases hg : j.get? "type" with
    | none => exact fun h => by cases h
    | some v => exact fun h => ht (by rw [hg]; exact congrArg some h)
  constructor
  · simp only [cliView, ProvableAi.verifyPackage, htype, ok_bind, if_pos hne]
    rfl
  · simp only [browserView, verifyPackage, prop_of_isObj hj, Option.bind_eq_bind, Option.bind_some, if_pos ht]
    cases template (j.get? "type") <;> rfl

/-- An empty ledger. -/
theorem views_of_empty (hj : j.isObj = true) (ht : j.get? "type" = some (.str packageType))
    {kvs : List (String × Json)} (hp : j.get? "proof" = some (.obj kvs))
    (hl : (proofBlock j).get? "ledger" = some (.arr [])) :
    cliView ed j = some (false, [("Package structure valid", false)]) ∧
      browserView j = some (false, [("Package structure valid", false)]) := by
  have hpb : proofBlock j = .obj kvs := by rw [proofBlock, hp]; rfl
  have hpobj : (proofBlock j).isObj = true := by rw [hpb]; rfl
  have htype : j.getD "type" .null = .ok (.str packageType) := Json.getD_eq_ok.2 ⟨hj, by rw [ht]; rfl⟩
  have hproof : j.getD "proof" (.obj []) = .ok (proofBlock j) := Json.getD_eq_ok.2 ⟨hj, rfl⟩
  have hledger : (proofBlock j).getD "ledger" (.arr []) = .ok (.arr []) :=
    Json.getD_eq_ok.2 ⟨hpobj, by rw [hl]; rfl⟩
  have opr : orElse (j.get? "proof") (.obj []) = proofBlock j := by
    rw [hp, orElse_of_truthy (truthy_obj kvs), hpb]
  have oled : orElse ((proofBlock j).get? "ledger") (.arr []) = .arr [] := by
    rw [hl]
    exact orElse_of_truthy rfl
  constructor
  · simp only [cliView, ProvableAi.verifyPackage, htype, hproof, hledger, ok_bind, ne_eq, not_true_eq_false, if_false]
    rfl
  · simp only [browserView, verifyPackage, prop_of_isObj hj, ht, opr, prop_of_isObj hpobj, oled,
      Option.bind_eq_bind, Option.bind_some, ne_eq, not_true_eq_false, if_false]
    rfl

/-- **The two verifiers agree** on a well-typed package exactly where they are
`Comparable`: with every check but the last one apart from odd types, and with
the last one where the key or the signature is missing, the root does not match,
or the signature does verify. -/
theorem agree_iff (ed : Ed25519) (h : WellTyped j) :
    (∃ r, cliView ed j = some r ∧ browserView j = some r) ↔ Comparable ed j := by
  obtain ⟨kvs, hp⟩ := h.proof
  obtain ⟨es, hl, hes⟩ := h.ledger
  have hpobj : (proofBlock j).isObj = true := Json.isObj_of_get? hl
  by_cases ht : j.get? "type" = some (.str packageType)
  swap
  · obtain ⟨hcli, hbrowser⟩ := @views_of_type ed j h.isObj ht
    rw [hcli, hbrowser, Comparable]
    simp only [ht, ne_eq, not_false_eq_true, true_imp_iff, IsEmpty.forall_iff, and_true]
    cases template (j.get? "type") <;> simp
  cases es with
  | nil =>
    obtain ⟨hcli, hbrowser⟩ := @views_of_empty ed j h.isObj ht kvs hp hl
    refine ⟨fun _ => ⟨fun h => absurd ht h, fun _ es _ hes hne _ => ?_⟩, fun _ => ⟨_, hcli, hbrowser⟩⟩
    exact absurd (Json.arr.inj (Option.some.inj (hes.symm.trans hl))) hne
  | cons e es =>
    have hpb : (proofBlock j).portable = true := by
      rw [proofBlock, hp]
      exact Json.portable_of_get? h.portable hp
    have hport : (Json.arr (e :: es)).portable = true := Json.portable_of_get? hpb hl
    obtain ⟨c3, m3, d3, n3, h3, k3, hc3, hd3, hcd⟩ := checkChain_agree (by simp) hes ((Json.portable_arr _).1 hport)
    obtain ⟨root, hpy, hjs⟩ := root_agree hes
    have hhash := checkPackageHash_agree_iff (j := j) h.isObj hport
    have hsign := @checkSigner_agree_iff ed j _ h.isObj kvs hp root hpy hjs
    have hcmp : Comparable ed j ↔ HashAgrees j ∧ SignerAgrees ed j root := by
      refine ⟨fun hc => hc.2 ht _ root hl (by simp) hpy, fun hc => ⟨fun hne => absurd ht hne, ?_⟩⟩
      intro _ es' root' hl' _ hroot'
      obtain rfl := Json.arr.inj (Option.some.inj (hl.symm.trans hl'))
      obtain rfl := Except.ok.inj (hpy.symm.trans hroot')
      exact hc
    rw [hcmp, ← hhash, ← hsign]
    simp only [cliView_eq_some h.isObj ht hpobj hl h3 hc3, browserView_eq_some h.isObj ht hp hl k3 hd3]
    constructor
    · rintro ⟨r, ⟨c2, c4, m4, h2, h4, rfl⟩, d2, d4, n4, k2, k4, heq⟩
      simp only [results, Prod.mk.injEq, List.cons.injEq, true_and, and_true] at heq
      exact ⟨⟨c2, d2, h2, k2, heq.2.1⟩, c4, m4, d4, n4, h4, k4, heq.2.2.2⟩
    · rintro ⟨⟨c2, d2, h2, k2, heq2⟩, c4, m4, d4, n4, h4, k4, heq4⟩
      exact ⟨_, ⟨c2, c4, m4, h2, h4, rfl⟩, d2, d4, n4, k2, k4, by rw [heq2, hcd, heq4]⟩

end

/-! A package with a right chain and any signature. -/

/-- What is hashed of its entry. -/
def sampleContent : Json :=
  hashedContent (.obj [("from_state", .str "pending"), ("to_state", .str "approved")])
    (.obj [("reason_code", .str "SCORE_ABOVE_THRESHOLD")]) (.obj [("model_version", .str "v1.0.0")])
    (.obj [("mode", .str "strict_deterministic")]) (.str genesisHash) (.int 1)

/-- Its entry. -/
def sampleEntry : Json :=
  .obj [("decision", .obj [("from_state", .str "pending"), ("to_state", .str "approved")]),
    ("decision_context", .obj [("reason_code", .str "SCORE_ABOVE_THRESHOLD")]),
    ("governance", .obj [("model_version", .str "v1.0.0")]), ("determinism", .obj [("mode", .str "strict_deterministic")]),
    ("ledger", .obj [("sequence_id", .int 1), ("previous_hash", .str genesisHash),
      ("current_hash", .str (sha256Hex (dumps sampleContent)))])]

/-- The package. -/
def samplePackage (signature : String) : Json :=
  exportPackage (toHex rfcPublicKey) signature "loan_1" (chainRoot [sampleEntry]) [sampleEntry]

theorem isBmp_of_lowerHex {s : String} (h : s.toList.all isLowerHex = true) : isBmp s = true := by
  rw [List.all_eq_true] at h
  rw [isBmp, List.all_eq_true]
  intro c hc
  rw [decide_eq_true_eq]
  rcases lowerHex_bounds (h c hc) with hb | hb <;> omega

theorem isBmp_sha256Hex (s : String) : isBmp (sha256Hex s) = true := isBmp_of_lowerHex (sha256Hex_lower s)

theorem sampleEntry_wellTyped : WellTypedEntry sampleEntry where
  ledger := ⟨_, rfl⟩
  currentHash := ⟨_, rfl, fun h => by simpa [h] using sha256Hex_length (dumps sampleContent)⟩
  previousHash := ⟨_, rfl, by decide⟩
  sequenceId := ⟨1, rfl, by decide⟩
  sections := by
    simp only [sections, List.forall_mem_cons]
    exact ⟨⟨_, rfl, by simp⟩, ⟨_, rfl, by simp⟩, ⟨_, rfl, by simp⟩, ⟨_, rfl, by simp⟩, by simp⟩

theorem sampleEntry_portable : sampleEntry.portable = true := by
  have hh : (Json.str (sha256Hex (dumps sampleContent))).portable = true := isBmp_sha256Hex _
  rw [sampleEntry, Json.portable_obj]
  simp only [List.forall_mem_cons, Json.portable_obj, hh]
  decide

theorem samplePackage_wellTyped {signature : String} (h : isBmp signature = true) :
    WellTyped (samplePackage signature) where
  wf := rfl
  portable := by
    have hs : (Json.str signature).portable = true := h
    have hk : (Json.str (toHex rfcPublicKey)).portable = true := isBmp_of_lowerHex (toHex_lower _)
    have hx : ∀ t, (Json.str (sha256Hex t)).portable = true := isBmp_sha256Hex
    have he : (Json.arr [sampleEntry]).portable = true := by simpa using sampleEntry_portable
    rw [samplePackage, exportPackage, Json.portable_obj]
    simp only [List.forall_mem_cons, Json.portable_obj, hs, hk, he, packageHash, proofFingerprint, chainRoot, hx]
    decide
  isObj := rfl
  proof := ⟨_, rfl⟩
  ledger := ⟨[sampleEntry], rfl, List.forall_mem_singleton.2 sampleEntry_wellTyped⟩

theorem sampleEntry_chainOk : ChainOk genesisHash [sampleEntry] := by
  refine ⟨sampleEntry_wellTyped.readable, ?_, rfl, trivial⟩
  have hc : entryContent sampleEntry = sampleContent := rfl
  rw [contentHash, hc]
  rfl

theorem toHex_ne {bs : Bytes} (h : bs ≠ []) : toHex bs ≠ "" := by
  intro he
  have hl := toHex_length bs
  rw [he] at hl
  exact h (List.length_eq_zero_iff.1 (by simpa using hl.symm))

theorem proofBlock_samplePackage (signature : String) : (proofBlock (samplePackage signature)).isObj = true := rfl

theorem verifyHexEd25519_ofTable_nil (pk sg : Json) (root : String) :
    verifyHexEd25519 (.ofTable rfcPublicKey []) pk root sg = false := by
  unfold verifyHexEd25519 verifyEd25519
  split
  · split <;> simp [Ed25519.ofTable]
  · rfl

/-- Without a signature both fail the last check and no other. -/
theorem agree_unsigned : ∃ r, cliView (.ofTable rfcPublicKey []) (samplePackage "") = some r ∧
    browserView (samplePackage "") = some r := by
  refine (agree_iff _ (samplePackage_wellTyped (by decide))).2 ⟨fun h => absurd rfl h, fun _ _ _ _ _ _ => ⟨?_, ?_⟩⟩
  · exact fun _ => ⟨truthy_sha256Hex _, rfl⟩
  · exact .inr (.inl rfl)

/-- **The browser accepts what is not signed.**  On a package with a right chain and a
signature of zeros the command line fails the last check and the browser passes
it, so that only the browser reports the package as verified. -/
theorem browser_accepts_forged :
    WellTyped (samplePackage (toHex (List.replicate 64 0))) ∧
      cliView (.ofTable rfcPublicKey []) (samplePackage (toHex (List.replicate 64 0))) =
        some (false, [("Package structure valid", true), ("Package untampered", true), ("Chain valid", true),
          ("Original signer verified", false)]) ∧
      browserView (samplePackage (toHex (List.replicate 64 0))) =
        some (true, [("Package structure valid", true), ("Package untampered", true), ("Chain valid", true),
          ("Original signer verified", true)]) := by
  obtain ⟨sg, hsg, hbmp, hne⟩ : ∃ sg, sg = toHex (List.replicate 64 0) ∧ isBmp sg = true ∧ sg ≠ "" :=
    ⟨_, rfl, isBmp_of_lowerHex (toHex_lower _), toHex_ne (by simp)⟩
  rw [← hsg]
  have hw := samplePackage_wellTyped hbmp
  have hchain := sampleEntry_chainOk
  obtain ⟨c3, m3, d3, n3, h3, k3, hc3, hd3, hcd⟩ := @checkChain_agree [sampleEntry] (by simp)
    (List.forall_mem_singleton.2 sampleEntry_wellTyped) (List.forall_mem_singleton.2 sampleEntry_portable)
  obtain ⟨detail, m, hpass⟩ := checkChain_returns (by simp) hchain rfl
  have hc3p : c3.passed = true := by
    obtain ⟨rfl, -⟩ := Prod.mk.inj (Except.ok.inj (h3.symm.trans hpass))
    rfl
  obtain ⟨root, hpy, hjs⟩ := root_agree (List.forall_mem_singleton.2 sampleEntry_wellTyped)
  obtain rfl := Except.ok.inj (hpy.symm.trans hchain.instanceRoot)
  obtain ⟨c2, h2⟩ := @checkPackageHash_returns (samplePackage sg) [sampleEntry] rfl fun _ => rfl
  have hc2 : c2.passed = true := (checkPackageHash_passed h2).2.2 fun _ => rfl
  obtain ⟨b2, d2, h2', k2, hbd⟩ := (@checkPackageHash_agree_iff (samplePackage sg) [sampleEntry] rfl
    (by simpa using sampleEntry_portable)).2 fun _ => ⟨truthy_sha256Hex _, rfl⟩
  obtain rfl := Except.ok.inj (h2.symm.trans h2')
  obtain ⟨c4, m4, h4, hc4⟩ := @checkSigner_refuses (.ofTable rfcPublicKey []) (samplePackage sg)
    [sampleEntry] _ _ rfl (proofBlock_samplePackage sg) hpy (truthy_of_length (by simp [rfcPublicKey]))
    (truthy_str hne) (fun _ => rfl) (verifyHexEd25519_ofTable_nil _ _ _)
  obtain ⟨d4, n4, k4, hd4⟩ := @checkSigner_passes (samplePackage sg) [sampleEntry] _ _ _ _ rfl rfl rfl
    (toHex_ne (by simp [rfcPublicKey])) rfl hne rfl hjs
  refine ⟨hw, ?_, ?_⟩
  · refine (cliView_eq_some rfl rfl rfl rfl h3 hc3).2 ⟨c2, c4, m4, h2, h4, ?_⟩
    rw [hc2, hc3p, hc4]
    rfl
  · refine (browserView_eq_some rfl rfl rfl rfl k3 hd3).2 ⟨d2, d4, n4, k2, k4, ?_⟩
    rw [← hbd, hc2, ← hcd, hc3p, hd4]
    rfl

end Browser

end ProvableAi
