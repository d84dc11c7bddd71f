/-
# `POST /verify-package`

The checks of `verify_package.py` once more, written into the endpoint of
`server/main.py`: "Checks run server-side (identical to the CLI and browser
verifier)", says its docstring.  The texts are others; the results are to be the
same.

After a valid chain the endpoint also reads the versions of the first entry,
`gov0.get("model_version", "")`, where `verify_package.py` reads none.  A
governance section that is no object is hashed like any other value, so its
chain is valid; then the endpoint raises, and the client gets a 500 in place of a
verdict.  `verdict_eq_iff` says that this is the only difference on the packages
that are typed as an export is.
-/

import ProvableAi.Package.Verify
import ProvableAi.Server.Endpoints

namespace ProvableAi

namespace PackageEndpoint

/-! ### The checks -/

/-- A check's dict: with a `detail` if it passed, else with a `failure`. -/
structure Check where
  name : String
  passed : Bool
  text : String
  deriving DecidableEq

namespace Check

def pass (name detail : String) : Check := ⟨name, true, detail⟩

def fail (name failure : String) : Check := ⟨name, false, failure⟩

/-- The dict. -/
def json (c : Check) : Json :=
  .obj [("name", .str c.name), ("passed", .bool c.passed), (if c.passed then "detail" else "failure", .str c.text)]

end Check

/-- Check 2: `package_hash`. -/
def checkPackageHash (package : Json) (ledger : List Json) : Except PyErr Check := do
  let name := "Package untampered"
  let stored ← package.getD "package_hash" (.str "")
  if stored.truthy then
    if stored = .str (packageHash ledger) then
      pure (.pass name "SHA-256 of full ledger matches package_hash")
    else do
      let text ← stored.pySlice 24
      pure (.fail name ("Hash mismatch — ledger modified after export. stored=" ++ text ++ "... computed=" ++
        slice 24 (packageHash ledger) ++ "..."))
  else
    pure (.pass name "No package_hash in package — skipped (older export format)")

/-- The loop of check 3; `prevHash` is `None` before the first entry.  The failure,
if there is one, without the text of the exception of `_vhash`, which is the function
`_recompute_hash` of the other program. -/
def chainLoop : Json → List Json → Except PyErr (Option String)
  | _, [] => pure none
  | prevHash, entry :: rest => do
    let block ← entry.getD "ledger" (.obj [])
    let storedHash ← block.getD "current_hash" (.str "")
    let previousHash ← block.getD "previous_hash" (.str genesisHash)
    let seqId ← block.getD "sequence_id" (.str "?")
    match recomputeHash entry with
    | .error _ => pure (some ("Could not recompute hash at seq=" ++ seqId.pyStr ++ ": "))
    | .ok computed =>
      if storedHash = .str computed then
        if previousHash = (if prevHash.truthy then prevHash else .str genesisHash) then
          chainLoop storedHash rest
        else
          pure (some ("Chain broken at seq=" ++ seqId.pyStr ++ ". previous_hash does not match prior current_hash."))
      else do
        let text ← storedHash.pySlice 16
        pure (some ("Hash mismatch at seq=" ++ seqId.pyStr ++ ". stored=" ++ text ++ "... computed=" ++
          slice 16 computed ++ "..."))

/-- Check 3: the hash of every entry and the links between them, with what it adds
to the metadata. -/
def checkChain (ledger : List Json) : Except PyErr (Check × List (String × Json)) := do
  let name := "Chain valid"
  let failure ← chainLoop .null ledger
  match failure with
  | some reason => pure (.fail name reason, [])
  | none => do
    let first := ledger.head?.getD .null
    let last := ledger.getLast?.getD .null
    let seqIds ← ledger.mapM fun e => do
      let block ← e.getD "ledger" (.obj [])
      block.getD "sequence_id" (.str "?")
    let decision ← last.getD "decision" (.obj [])
    let finalState ← decision.getD "to_state" (.str "unknown")
    let firstBlock ← first.getD "ledger" (.obj [])
    let firstTs ← firstBlock.getD "timestamp" (.str "")
    let lastBlock ← last.getD "ledger" (.obj [])
    let lastTs ← lastBlock.getD "timestamp" (.str "")
    let gov0 ← first.getD "governance" (.obj [])
    let modelVersion ← gov0.getD "model_version" (.str "")
    let agentVersion ← gov0.getD "agent_version" (.str "")
    let policyVersion ← gov0.getD "policy_version" (.str "")
    pure (.pass name (toString ledger.length ++ " proofs, " ++ seqRange seqIds),
      [("final_state", finalState), ("first_ts", firstTs), ("last_ts", lastTs), ("model_version", modelVersion),
        ("agent_version", agentVersion), ("policy_version", policyVersion)])

/-- Check 4: the signature over the instance root.  The text of an exception of PyNaCl
is left out of the failure. -/
def checkSigner (ed : Ed25519) (package : Json) (ledger : List Json) :
    Except PyErr (Check × List (String × Json)) := do
  let name := "Original signer verified"
  let publicKey ← package.getD "public_key" (.str "")
  let signature ← package.getD "signature" (.str "")
  let proofBlock ← package.getD "proof" (.obj [])
  let storedRoot ← proofBlock.getD "instance_root" (.str "")
  if !publicKey.truthy || !signature.truthy then
    pure (.fail name "Missing public_key or signature in package.", [])
  else do
    let computedRoot ← instanceRoot ledger
    if storedRoot.truthy && storedRoot ≠ .str computedRoot then do
      let text ← storedRoot.pySlice 16
      pure (.fail name ("Instance root mismatch — contents modified after signing. stored=" ++ text ++
        "... computed=" ++ slice 16 computedRoot ++ "..."), [])
    else if verifyHexEd25519 ed publicKey computedRoot signature then
      let keyId := "env-" ++ slice 16 publicKey.pyStr
      pure (.pass name ("Signed by " ++ keyId ++ " — signature mathematically valid"), [("key_id", .str keyId)])
    else
      pure (.fail name ("Ed25519 signature invalid — package may have been re-signed or signature corrupted: "), [])

/-- What the checks leave behind: their dicts, `len(ledger)` and `meta`. -/
structure Report where
  checks : List Check
  proofCount : ℕ
  info : List (String × Json)

/-- `all_passed`. -/
def Report.allPassed (r : Report) : Bool := r.checks.all Check.passed

/-- The four checks, or the first one alone if it fails. -/
def runChecks (ed : Ed25519) (package : Json) : Except PyErr Report := do
  let name := "Package structure valid"
  let type ← package.getD "type" .null
  if type ≠ .str packageType then
    pure ⟨[.fail name ("Unknown type: " ++ type.repr)], 0, []⟩
  else do
    let proofBlock ← package.getD "proof" (.obj [])
    let ledger ← proofBlock.getD "ledger" (.arr [])
    match ledger with
    | .arr (e :: es) => do
      let instanceId ← proofBlock.getD "instance_id" (.str "unknown")
      let c2 ← checkPackageHash package (e :: es)
      let (c3, meta3) ← checkChain (e :: es)
      let (c4, meta4) ← checkSigner ed package (e :: es)
      pure ⟨[.pass name (toString (e :: es).length ++ " proof(s) in package"), c2, c3, c4], (e :: es).length,
        [("ledger", .arr (e :: es)), ("instance_id", instanceId)] ++ meta3 ++ meta4⟩
    | _ => pure ⟨[.fail name "proof.ledger is empty — no decisions recorded."], 0, []⟩

/-! ### The response -/

namespace Report

/-- A check of this name has this result. -/
def has (r : Report) (name : String) (passed : Bool) : Bool :=
  r.checks.any fun c => c.name = name && c.passed = passed

/-- `failure_reason`. -/
def failureReason (r : Report) : Json :=
  if r.allPassed then .null
  else if r.has "Package structure valid" false then
    .str ("This file is not a valid Zorynex proof package. " ++
      "It may be corrupted, incomplete, or the wrong file type.")
  else if r.has "Package untampered" false && r.has "Original signer verified" true then
    .str ("This proof was signed by a verified key, but its contents were modified " ++
      "after it was exported. The original signer is confirmed — the package itself " ++
      "was tampered. Do not trust this artifact.")
  else if r.has "Chain valid" false && r.has "Original signer verified" true then
    .str ("This proof was signed by a verified key, but the decision chain has been " ++
      "altered — a record was inserted, deleted, or reordered. Do not trust this artifact.")
  else if r.has "Package untampered" false then
    .str "The exported package has been modified since it was created. Do not trust this artifact."
  else if r.has "Chain valid" false then
    .str "The decision chain is broken — a record may have been altered. Do not trust this artifact."
  else .str "One or more cryptographic checks failed. Do not trust this artifact."

/-- `meta.get(k)`. -/
def field (r : Report) (k : String) : Json := (r.info.lookup k).getD .null

/-- The response of the checks: the first one alone is answered at once. -/
def response (traceId : String) (r : Report) : Response :=
  let checks := Json.arr (r.checks.map Check.json)
  if r.checks.length = 1 then
    .json 422 (.obj [("verified", .bool false), ("checks", checks), ("instance_id", r.field "instance_id"),
      ("trace_id", .str traceId)])
  else
    .json (if r.allPassed then 200 else 422) (.obj [("verified", .bool r.allPassed),
      ("failure_reason", r.failureReason), ("instance_id", r.field "instance_id"), ("final_state", r.field "final_state"),
      ("proof_count", .int r.proofCount), ("model_version", r.field "model_version"),
      ("policy_version", r.field "policy_version"), ("first_decision", r.field "first_ts"),
      ("last_decision", r.field "last_ts"), ("signing_key", r.field "key_id"), ("checks", checks),
      ("trace_id", .str traceId)])

end Report

/-- `verify_package_endpoint` on the text of a request body. -/
def verifyPackageEndpoint (ed : Ed25519) (traceId body : String) : Response :=
  match loads body with
  | none => .failed 400 "INVALID_JSON" "Request body must be valid JSON (the full proof package)."
      [("hint", .str "Export via GET /proof/export/\x7binstance_id\x7d?inline=true")]
  | some package =>
    match runChecks ed package with
    | .error _ => .internalError traceId
    | .ok report => report.response traceId

/-! ### What is compared -/

/-- The name and the result of every check, the verdict and the final state. -/
structure Verdict where
  checks : List (String × Bool)
  verified : Bool
  finalState : Option Json
  deriving DecidableEq

/-- The verdict of the endpoint, none where it raises. -/
def serverVerdict (ed : Ed25519) (package : Json) : Option Verdict :=
  (runChecks ed package).toOption.map fun r =>
    ⟨r.checks.map fun c => (c.name, c.passed), r.allPassed, r.info.lookup "final_state"⟩

/-- The verdict of `verify_package.py`, none where it raises. -/
def cliVerdict (ed : Ed25519) (package : Json) : Option Verdict :=
  (verifyPackage ed package).toOption.map fun r =>
    ⟨r.2.1.map fun c => (c.name, c.passed), r.1, r.2.2.lookup "final_state"⟩

/-- A field that is a text where it is there. -/
def TextOrAbsent (j : Json) (k : String) : Prop := ∀ v, j.get? k = some v → ∃ s, v = .str s

/-- An entry with a ledger block whose hashes are texts. -/
structure TypedEntry (e : Json) : Prop where
  block : ∃ kvs, e.get? "ledger" = some (.obj kvs)
  currentHash : TextOrAbsent (entryBlock e) "current_hash"
  previousHash : TextOrAbsent (entryBlock e) "previous_hash"

/-- A package whose fields have the types they have in an export. -/
structure Typed (j : Json) : Prop where
  type : TextOrAbsent j "type"
  proof : ∃ kvs, j.get? "proof" = some (.obj kvs)
  ledger : ∀ v, (proofBlock j).get? "ledger" = some v → ∃ es, v = .arr es ∧ ∀ e ∈ es, TypedEntry e
  packageHash : TextOrAbsent j "package_hash"
  publicKey : TextOrAbsent j "public_key"
  signature : TextOrAbsent j "signature"

/-- The failure of check 4 can be written: the root it finds wrong is a text or a list. -/
def RootReadable (j : Json) (es : List Json) : Prop :=
  (textField j "public_key").truthy = true → (textField j "signature").truthy = true →
    (textField (proofBlock j) "instance_root").truthy = true →
    textField (proofBlock j) "instance_root" ≠ .str (chainRoot es) →
    (∃ s, textField (proofBlock j) "instance_root" = .str s) ∨ ∃ xs, textField (proofBlock j) "instance_root" = .arr xs

/-- The section the endpoint reads the versions from. -/
def firstGovernance (es : List Json) : Json := entrySection (es.head?.getD .null) "governance"

/-- A package that passes check 1, over a valid chain with a final state. -/
structure Reached (j : Json) (es : List Json) : Prop where
  type : j.get? "type" = some (.str packageType)
  ledger : (proofBlock j).get? "ledger" = some (.arr es)
  ne : es ≠ []
  chain : ChainOk genesisHash es
  finalState : (lastDecision es).isObj = true

/-- Where `verify_package.py` comes to a verdict over a valid chain, the governance of
the first entry is an object. -/
def VersionsReadable (j : Json) : Prop :=
  ∀ es, Reached j es → RootReadable j es → (firstGovernance es).isObj = true

/-! ### The checks agree -/

/-- Both calls return, with related results, or both raise. -/
def Agree {α β : Type} (R : α → β → Prop) : Except PyErr α → Except PyErr β → Prop
  | .ok a, .ok b => R a b
  | .error _, .error _ => True
  | _, _ => False

namespace Agree

variable {α β γ δ : Type} {R : α → β → Prop} {S : γ → δ → Prop}

theorem bind {x : Except PyErr α} {y : Except PyErr β} {f : α → Except PyErr γ} {g : β → Except PyErr δ}
    (h : Agree R x y) (hfg : ∀ a b, x = .ok a → y = .ok b → R a b → Agree S (f a) (g b)) :
    Agree S (x >>= f) (y >>= g) := by
  cases x with
  | error e =>
    cases y with
    | error e' => trivial
    | ok b => exact h.elim
  | ok a =>
    cases y with
    | error e' => exact h.elim
    | ok b => exact hfg a b rfl rfl h

/-- Both programs begin with the same call. -/
theorem bind_same (x : Except PyErr α) {f : α → Except PyErr γ} {g : α → Except PyErr δ}
    (hfg : ∀ a, x = .ok a → Agree S (f a) (g a)) : Agree S (x >>= f) (x >>= g) := by
  cases x with
  | error e => trivial
  | ok a => exact hfg a rfl

end Agree

variable {ed : Ed25519} {j : Json} {es : List Json}

/-- A slice of another length is taken of the same values. -/
theorem pySlice_agree (m n : ℕ) (v : Json) : Agree (fun _ _ => True) (v.pySlice m) (v.pySlice n) := by
  cases v <;> trivial

/-- The dict and the `CheckResult` have one name and one result. -/
def Same (c : Check) (d : CheckResult) : Prop := c.name = d.name ∧ c.passed = d.passed

/-- Check 2. -/
theorem checkPackageHash_agree (j : Json) (es : List Json) :
    Agree Same (checkPackageHash j es) (ProvableAi.checkPackageHash j es) := by
  refine Agree.bind_same _ fun stored _ => ?_
  split_ifs with ht hs
  · exact ⟨rfl, rfl⟩
  · exact (pySlice_agree 24 32 stored).bind fun _ _ _ _ _ => ⟨rfl, rfl⟩
  · exact ⟨rfl, rfl⟩

/-- The loops of check 3 find a failure at the same entry. -/
theorem chainLoop_agree (es : List Json) : ∀ v : Json,
    Agree (fun r r' => r.isSome = r'.isSome) (chainLoop v es) (ProvableAi.chainLoop v es) := by
  induction es with
  | nil => exact fun _ => rfl
  | cons e es ih =>
    intro v
    rw [chainLoop, ProvableAi.chainLoop]
    refine Agree.bind_same _ fun block hblock => Agree.bind_same _ fun stored hstored =>
      Agree.bind_same _ fun link _ => Agree.bind_same _ fun seqId _ => ?_
    -- the reads above have shown that the hash can be recomputed
    have hr : Readable e := by
      obtain ⟨he, rfl⟩ := Json.getD_eq_ok.1 hblock
      exact ⟨he, (Json.getD_eq_ok.1 hstored).1⟩
    rw [recomputeHash_eq_ok.2 ⟨hr, rfl⟩]
    simp only [ok_bind]
    generalize (if v.truthy then v else .str genesisHash) = expected
    split_ifs with hs hl
    · exact ih _
    · exact rfl
    · refine (pySlice_agree 16 32 stored).bind fun _ _ _ _ _ => ?_
      exact rfl

theorem getD_of_isObj {v : Json} (h : v.isObj = true) (k : String) (d : Json) :
    v.getD k d = .ok ((v.get? k).getD d) := Json.getD_eq_ok.2 ⟨h, rfl⟩

/-- The results of the last two checks: the dict, and the final state in the metadata. -/
def SameState (a : Check × List (String × Json)) (b : CheckResult × List (String × Json)) : Prop :=
  Same a.1 b.1 ∧ a.2.lookup "final_state" = b.2.lookup "final_state"

theorem ChainOk.head {prev : String} (h : ChainOk prev es) (hne : es ≠ []) : Readable (es.head?.getD .null) := by
  rw [List.head?_eq_some_head hne]
  exact h.readable _ (List.head_mem hne)

theorem ChainOk.last {prev : String} (h : ChainOk prev es) (hne : es ≠ []) :
    Readable (es.getLast?.getD .null) := by
  rw [List.getLast?_eq_some_getLast hne]
  exact h.readable _ (List.getLast_mem hne)

/-- Check 3, where the versions can be read. -/
theorem checkChain_agree (hne : es ≠ [])
    (h : ChainOk genesisHash es → (lastDecision es).isObj = true → (firstGovernance es).isObj = true) :
    Agree SameState (checkChain es) (ProvableAi.checkChain es) := by
  refine (chainLoop_agree es .null).bind fun r r' _ hr' hrr => ?_
  cases r' with
  | some reason' =>
    obtain ⟨reason, rfl⟩ := Option.isSome_iff_exists.1 hrr
    exact ⟨⟨rfl, rfl⟩, rfl⟩
  | none =>
    obtain rfl : r = none := by simpa using hrr
    have hok := (chainLoop_eq_none rfl).1 hr'
    have hfirst := ChainOk.head hok hne
    have hlast := ChainOk.last hok hne
    refine Agree.bind_same _ fun seqIds _ => Agree.bind_same _ fun decision hdecision =>
      Agree.bind_same _ fun finalState hstate => ?_
    obtain ⟨-, rfl⟩ := Json.getD_eq_ok.1 hdecision
    have hgov : ((es.head?.getD Json.null).get? "governance").getD (.obj []) = firstGovernance es := rfl
    have hgobj := h hok (Json.getD_eq_ok.1 hstate).1
    simp only [getD_of_isObj hfirst.1, getD_of_isObj hlast.1, ok_bind]
    rw [hgov]
    simp only [getD_of_isObj hgobj, ok_bind]
    rw [show ((es.head?.getD Json.null).get? "ledger").getD (.obj []) = entryBlock (es.head?.getD .null) from rfl,
      show ((es.getLast?.getD Json.null).get? "ledger").getD (.obj []) = entryBlock (es.getLast?.getD .null) from rfl,
      getD_of_isObj hfirst.2, getD_of_isObj hlast.2]
    exact ⟨⟨rfl, rfl⟩, rfl⟩

/-- Check 3, where they cannot. -/
theorem checkChain_raises (h : ChainOk genesisHash es) (hg : (firstGovernance es).isObj = false) :
    ∃ e, checkChain es = .error e := by
  cases hc : checkChain es with
  | error e => exact ⟨e, rfl⟩
  | ok r =>
    rw [checkChain] at hc
    obtain ⟨failure, hloop, hc⟩ := bind_eq_ok_iff.1 hc
    have hagree := chainLoop_agree es .null
    rw [hloop, (chainLoop_eq_none rfl).2 h] at hagree
    obtain rfl : failure = none := by simpa [Agree] using hagree
    simp only [bind_eq_ok_iff, Json.getD_eq_ok] at hc
    obtain ⟨-, -, -, -, -, -, -, -, -, -, -, -, -, -, gov, ⟨-, hgov⟩, -, ⟨hobj, -⟩, -⟩ := hc
    obtain rfl : firstGovernance es = gov := hgov
    rw [hg] at hobj
    cases hobj

/-- Check 4. -/
theorem checkSigner_agree (ed : Ed25519) (j : Json) (es : List Json) :
    Agree SameState (checkSigner ed j es) (ProvableAi.checkSigner ed j (proofBlock j) es) := by
  refine Agree.bind_same _ fun publicKey hpk => Agree.bind_same _ fun signature _ => ?_
  have hj := (Json.getD_eq_ok.1 hpk).1
  rw [getD_of_isObj hj, ok_bind]
  refine Agree.bind_same _ fun storedRoot _ => ?_
  split_ifs with hmissing
  · exact ⟨⟨rfl, rfl⟩, rfl⟩
  refine Agree.bind_same _ fun root _ => ?_
  split_ifs with hmismatch hverifies
  · exact (pySlice_agree 16 32 storedRoot).bind fun _ _ _ _ _ => ⟨⟨rfl, rfl⟩, rfl⟩
  · exact ⟨⟨rfl, rfl⟩, rfl⟩
  · exact ⟨⟨rfl, rfl⟩, rfl⟩

/-! ### The verdicts agree -/

/-- The reports have one list of results, one verdict and one final state. -/
structure SameReport (r : Report) (b : Bool × List CheckResult × List (String × Json)) : Prop where
  checks : r.checks.map (fun c => (c.name, c.passed)) = b.2.1.map fun c => (c.name, c.passed)
  verified : r.allPassed = b.1
  finalState : r.info.lookup "final_state" = b.2.2.lookup "final_state"

theorem verdict_eq_of_agree (h : Agree SameReport (runChecks ed j) (verifyPackage ed j)) :
    serverVerdict ed j = cliVerdict ed j := by
  rw [serverVerdict, cliVerdict]
  cases hs : runChecks ed j with
  | error e =>
    cases hc : verifyPackage ed j with
    | error e' => rfl
    | ok b => rw [hs, hc] at h; exact h.elim
  | ok r =>
    cases hc : verifyPackage ed j with
    | error e' => rw [hs, hc] at h; exact h.elim
    | ok b =>
      rw [hs, hc] at h
      obtain ⟨h₁, h₂, h₃⟩ := h
      simp [Except.toOption, h₁, h₂, h₃]

/-- What is not the default was there. -/
theorem eq_some_of_getD {α : Type} {o : Option α} {d v : α} (h : o.getD d = v) (hne : v ≠ d) : o = some v := by
  cases o with
  | none => exact absurd h.symm hne
  | some w => exact congrArg some h

theorem runChecks_agree (h : ∀ es, Reached j es → (firstGovernance es).isObj = true) :
    Agree SameReport (runChecks ed j) (verifyPackage ed j) := by
  rw [runChecks, verifyPackage]
  refine Agree.bind_same _ fun type htype => ?_
  split_ifs with ht
  · exact ⟨rfl, rfl, rfl⟩
  have hty : j.get? "type" = some (.str packageType) := by
    obtain ⟨-, htype⟩ := Json.getD_eq_ok.1 htype
    exact eq_some_of_getD (htype.trans (not_not.1 ht)) (by simp)
  refine Agree.bind_same _ fun pb hpb => Agree.bind_same _ fun ledger hledger => ?_
  obtain ⟨hj, rfl⟩ := Json.getD_eq_ok.1 hpb
  obtain ⟨hp, hledger⟩ := Json.getD_eq_ok.1 hledger
  cases ledger with
  | arr es =>
    cases es with
    | nil => exact ⟨rfl, rfl, rfl⟩
    | cons e es =>
      have hlg : (proofBlock j).get? "ledger" = some (.arr (e :: es)) := eq_some_of_getD hledger (by simp)
      refine Agree.bind_same _ fun instanceId _ => (checkPackageHash_agree j (e :: es)).bind fun c₂ d₂ _ _ h₂ =>
        (checkChain_agree (by simp) fun hc hd => h _ ⟨hty, hlg, by simp, hc, hd⟩).bind fun cm₃ dm₃ _ _ h₃ =>
        (checkSigner_agree ed j (e :: es)).bind fun cm₄ dm₄ _ _ h₄ => ?_
      obtain ⟨⟨hn₃, hp₃⟩, hs₃⟩ := h₃
      obtain ⟨⟨hn₄, hp₄⟩, hs₄⟩ := h₄
      exact ⟨by simp [h₂.1, h₂.2, hn₃, hp₃, hn₄, hp₄, Check.pass, CheckResult.ok, CheckResult.new],
        by simp [Report.allPassed, h₂.2, hp₃, hp₄, Check.pass, CheckResult.ok],
        by simp only [List.lookup_append, hs₃, hs₄]⟩
  | null => exact ⟨rfl, rfl, rfl⟩
  | bool _ => exact ⟨rfl, rfl, rfl⟩
  | int _ => exact ⟨rfl, rfl, rfl⟩
  | float _ => exact ⟨rfl, rfl, rfl⟩
  | str _ => exact ⟨rfl, rfl, rfl⟩
  | obj _ => exact ⟨rfl, rfl, rfl⟩

namespace Reached

theorem isObj (h : Reached j es) : j.isObj = true := Json.isObj_of_get? h.type

theorem proof (h : Reached j es) : (proofBlock j).isObj = true := Json.isObj_of_get? h.ledger

/-- What both programs read of it before the checks. -/
theorem reads (h : Reached j es) :
    j.getD "type" .null = .ok (.str packageType) ∧ j.getD "proof" (.obj []) = .ok (proofBlock j) ∧
      (proofBlock j).getD "ledger" (.arr []) = .ok (.arr es) := by
  refine ⟨?_, getD_of_isObj h.isObj _ _, ?_⟩
  · rw [getD_of_isObj h.isObj, h.type]
    rfl
  · rw [getD_of_isObj h.proof, h.ledger]
    rfl

/-- The endpoint raises where it cannot read the versions. -/
theorem serverVerdict_eq_none (h : Reached j es) (hg : (firstGovernance es).isObj = false) :
    serverVerdict ed j = none := by
  obtain ⟨htype, hproof, hledger⟩ := h.reads
  obtain ⟨e, rest, rfl⟩ := List.exists_cons_of_ne_nil h.ne
  obtain ⟨err, herr⟩ := checkChain_raises h.chain hg
  have hraise : ∃ err, runChecks ed j = .error err := by
    simp only [runChecks, htype, hproof, hledger, ok_bind, getD_of_isObj h.proof, herr, ne_eq, not_true_eq_false,
      if_false]
    cases checkPackageHash j (e :: rest) with
    | error err' => exact ⟨err', rfl⟩
    | ok c => exact ⟨err, rfl⟩
  obtain ⟨err', hraise⟩ := hraise
  rw [serverVerdict, hraise]
  rfl

end Reached

theorem pySlice_returns_iff {n : ℕ} {v : Json} :
    (∃ t, v.pySlice n = .ok t) ↔ (∃ s, v = .str s) ∨ ∃ xs, v = .arr xs := by
  cases v <;> simp [Json.pySlice]

/-- Check 4 of `verify_package.py` returns exactly where its failure can be written. -/
theorem checkSigner_returns_iff (h : Reached j es) :
    (∃ r, ProvableAi.checkSigner ed j (proofBlock j) es = .ok r) ↔ RootReadable j es := by
  have htext : ∀ k, j.getD k (.str "") = .ok (textField j k) := fun k => getD_of_isObj h.isObj _ _
  have hroot : (proofBlock j).getD "instance_root" (.str "") = .ok (textField (proofBlock j) "instance_root") :=
    getD_of_isObj h.proof _ _
  simp only [ProvableAi.checkSigner, htext, hroot, ok_bind, h.chain.instanceRoot, RootReadable]
  generalize textField (proofBlock j) "instance_root" = root
  cases hpk : (textField j "public_key").truthy with
  | false => simp [pure, Except.pure]
  | true =>
    cases hsg : (textField j "signature").truthy with
    | false => simp [pure, Except.pure]
    | true =>
      simp only [Bool.not_true, Bool.or_self, Bool.false_eq_true, if_false, forall_const]
      by_cases hmis : root.truthy = true ∧ root ≠ .str (chainRoot es)
      · rw [if_pos (by simpa using hmis)]
        simp only [hmis.1, hmis.2, ne_eq, not_false_eq_true, forall_const, ← pySlice_returns_iff (n := 32)]
        cases root.pySlice 32 with
        | error e => simp [bind, Except.bind]
        | ok t => simp [bind, Except.bind, pure, Except.pure]
      · rw [if_neg (by simpa using hmis)]
        have hvac : root.truthy = true → root ≠ .str (chainRoot es) → (∃ s, root = .str s) ∨ ∃ xs, root = .arr xs :=
          fun h₁ h₂ => absurd ⟨h₁, h₂⟩ hmis
        refine iff_of_true ?_ hvac
        split_ifs
        · exact ⟨_, rfl⟩
        · exact ⟨_, rfl⟩

theorem TextOrAbsent.textField {k : String} (h : TextOrAbsent j k) : ∃ s, textField j k = .str s := by
  rw [ProvableAi.textField]
  cases hv : j.get? k with
  | none => exact ⟨"", rfl⟩
  | some v => exact h v hv

/-- Check 2 returns on a typed package. -/
theorem Typed.checkPackageHash_returns (h : Typed j) (es : List Json) :
    ∃ c, ProvableAi.checkPackageHash j es = .ok c := by
  obtain ⟨kvs, hp⟩ := h.proof
  obtain ⟨s, hs⟩ := h.packageHash.textField
  have hread : j.getD "package_hash" (.str "") = .ok (.str s) := getD_textField.2 ⟨Json.isObj_of_get? hp, hs⟩
  simp only [ProvableAi.checkPackageHash, hread, ok_bind]
  split_ifs
  · exact ⟨_, rfl⟩
  · exact ⟨_, rfl⟩
  · exact ⟨_, rfl⟩

theorem cliVerdict_isSome_iff (hty : Typed j) (h : Reached j es) :
    (cliVerdict ed j).isSome = true ↔ RootReadable j es := by
  obtain ⟨htype, hproof, hledger⟩ := h.reads
  obtain ⟨e, rest, rfl⟩ := List.exists_cons_of_ne_nil h.ne
  obtain ⟨detail, m, hchain⟩ := checkChain_returns h.ne h.chain h.finalState
  obtain ⟨c, hhash⟩ := hty.checkPackageHash_returns (e :: rest)
  rw [← checkSigner_returns_iff h, cliVerdict]
  simp only [verifyPackage, htype, hproof, hledger, ok_bind, getD_of_isObj h.proof, hhash, hchain, ne_eq,
    not_true_eq_false, if_false]
  cases ProvableAi.checkSigner ed j (proofBlock j) (e :: rest) with
  | error err => simp [bind, Except.bind, Except.toOption]
  | ok r => simp [bind, Except.bind, pure, Except.pure, Except.toOption]

/-- **The endpoint and `verify_package.py` agree** on a package exactly if the endpoint
can read the versions wherever the other comes to a verdict over a valid chain. -/
theorem verdict_eq_iff (h : Typed j) : serverVerdict ed j = cliVerdict ed j ↔ VersionsReadable j := by
  constructor
  · intro heq es hr hroot
    by_contra hg
    have hnone : serverVerdict ed j = none := hr.serverVerdict_eq_none (Bool.not_eq_true _ ▸ hg)
    have hsome : (cliVerdict ed j).isSome = true := (cliVerdict_isSome_iff h hr).2 hroot
    rw [← heq, hnone] at hsome
    cases hsome
  · intro hv
    by_cases hall : ∀ es, Reached j es → (firstGovernance es).isObj = true
    · exact verdict_eq_of_agree (runChecks_agree hall)
    · simp only [not_forall] at hall
      obtain ⟨es, hr, hg⟩ := hall
      have hnone : ¬ (cliVerdict ed j).isSome = true := fun hs =>
        hg (hv es hr ((cliVerdict_isSome_iff h hr).1 hs))
      rw [hr.serverVerdict_eq_none (Bool.not_eq_true _ ▸ hg)]
      exact (Option.not_isSome_iff_eq_none.1 hnone).symm

/-! A package of one entry with any value as its governance. -/

/-- The entry. -/
def sampleEntry (governance : Json) : Json :=
  let decision := Json.obj [("from_state", .str "pending"), ("to_state", .str "approved")]
  .obj [("decision", decision), ("decision_context", .obj []), ("governance", governance), ("determinism", .obj []),
    ("ledger", .obj [("sequence_id", .int 1), ("previous_hash", .str genesisHash),
      ("current_hash", .str (sha256Hex (dumps
        (hashedContent decision (.obj []) governance (.obj []) (.str genesisHash) (.int 1)))))])]

/-- The signature of the key of the test vectors over its root, where the governance is
`null`. -/
def sampleSignature : Bytes :=
  [0x89, 0xcb, 0x36, 0x63, 0x41, 0x22, 0x20, 0x42, 0xe9, 0x39, 0x0e, 0xe1, 0x00, 0x60, 0xf4, 0x48,
   0xe7, 0x77, 0x85, 0x47, 0x8c, 0x55, 0xd9, 0xeb, 0x17, 0x1b, 0xda, 0x95, 0x54, 0x02, 0x88, 0x27,
   0x3a, 0x7e, 0x06, 0xa6, 0xf6, 0x28, 0xf1, 0x6d, 0x54, 0x46, 0x55, 0x80, 0x12, 0xe3, 0x1c, 0x0f,
   0x35, 0x96, 0xca, 0xce, 0xdd, 0x3c, 0xa9, 0xed, 0x60, 0x8b, 0xa9, 0x2a, 0xdd, 0x61, 0xe5, 0x0e]

/-- A verifier that knows this signature. -/
def sampleVerifier : Ed25519 := fun pk m s =>
  decide (pk = rfcPublicKey ∧ m = sha256 (utf8 (contentHash (sampleEntry .null))) ∧ s = sampleSignature)

/-- The package. -/
def samplePackage (governance : Json) : Json :=
  .obj [("type", .str packageType), ("public_key", .str (toHex rfcPublicKey)),
    ("signature", .str (toHex sampleSignature)), ("package_hash", .str (packageHash [sampleEntry governance])),
    ("proof", .obj [("instance_id", .str "loan_1"), ("ledger", .arr [sampleEntry governance])])]

theorem samplePackage_typed (governance : Json) : Typed (samplePackage governance) where
  type := by rintro _ ⟨⟩; exact ⟨_, rfl⟩
  proof := ⟨_, rfl⟩
  ledger := by
    rintro _ ⟨⟩
    refine ⟨_, rfl, List.forall_mem_singleton.2 ⟨⟨_, rfl⟩, ?_, ?_⟩⟩
    · rintro _ ⟨⟩
      exact ⟨_, rfl⟩
    · rintro _ ⟨⟩
      exact ⟨_, rfl⟩
  packageHash := by rintro _ ⟨⟩; exact ⟨_, rfl⟩
  publicKey := by rintro _ ⟨⟩; exact ⟨_, rfl⟩
  signature := by rintro _ ⟨⟩; exact ⟨_, rfl⟩

theorem samplePackage_reached (governance : Json) : Reached (samplePackage governance) [sampleEntry governance] :=
  ⟨rfl, rfl, by simp, ⟨⟨rfl, rfl⟩, rfl, rfl, trivial⟩, rfl⟩

/-- With an object as governance the two programs agree. -/
theorem verdict_eq_sample : Typed (samplePackage (.obj [])) ∧
    serverVerdict sampleVerifier (samplePackage (.obj [])) = cliVerdict sampleVerifier (samplePackage (.obj [])) := by
  have h := samplePackage_typed (.obj [])
  refine ⟨h, (verdict_eq_iff h).2 fun es hr _ => ?_⟩
  obtain rfl : [sampleEntry (.obj [])] = es := Json.arr.inj (Option.some.inj hr.ledger)
  rfl

/-- **A governance of `null`**: `verify_package.py` verifies the package, the endpoint
raises. -/
theorem null_governance_raises : Typed (samplePackage .null) ∧ serverVerdict sampleVerifier (samplePackage .null) = none ∧
    ∃ v, cliVerdict sampleVerifier (samplePackage .null) = some v ∧ v.verified = true := by
  have hr := samplePackage_reached .null
  have hroot : chainRoot [sampleEntry .null] = sha256Hex (contentHash (sampleEntry .null)) := by
    simp [chainRoot, String.join]
  have hacc : Accepted sampleVerifier (samplePackage .null) [sampleEntry .null] :=
    { isObj := rfl
      type := hr.type
      proof := rfl
      ledger := hr.ledger
      ne := hr.ne
      packageHash := fun _ => rfl
      chain := hr.chain
      finalState := hr.finalState
      publicKey := truthy_of_length (by rw [toHex_length]; decide)
      signature := truthy_of_length (by rw [toHex_length]; decide)
      root := fun h => by cases h
      verifies := by
        rw [hroot]
        exact (verifyHexEd25519_toHex _ _ _ _).trans (decide_eq_true ⟨rfl, rfl, rfl⟩) }
  obtain ⟨cs, m, hcli, -⟩ := hacc.verifyPackage
  have hcli : cliVerdict sampleVerifier (samplePackage .null) =
      some ⟨cs.map fun c => (c.name, c.passed), true, m.lookup "final_state"⟩ := by
    rw [cliVerdict, hcli]
    rfl
  exact ⟨samplePackage_typed .null, hr.serverVerdict_eq_none rfl, _, hcli, rfl⟩

end PackageEndpoint

end ProvableAi
