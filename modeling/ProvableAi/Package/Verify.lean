/-
# The package verifiers

`verify/verify_package.py` and `tools/offline_verify.py`: two stand-alone
programs that read an exported package and check it with nothing but the
package itself.  They take any JSON value; what a package does not have gets a
default, and a value of the wrong type raises where the code uses it.

`accepted_of_verifyPackage` and `Accepted.verifyPackage` read the first program
as a statement about the entries of the ledger: each carries the hash of its
content and the hash of the entry before it (`ChainOk`), and the key's
signature over the root verifies.  `Accepted.offlineVerify` says the same of
the second one, for entries that do carry a `previous_hash`.
-/

import ProvableAi.Engine.Runs

namespace ProvableAi

/-! ### The checks of `verify_package.py` -/

/-- `CheckResult`. -/
structure CheckResult where
  name : String
  passed : Bool
  detail : String
  failure : String
  skipped : Bool
  deriving DecidableEq

namespace CheckResult

/-- `CheckResult(name)`. -/
def new (name : String) : CheckResult := ⟨name, false, "", "", false⟩

/-- `ok`. -/
def ok (c : CheckResult) (detail : String) : CheckResult := { c with passed := true, detail := detail }

/-- `fail`. -/
def fail (c : CheckResult) (reason : String) : CheckResult := { c with passed := false, failure := reason }

/-- `warn`: skipped, which counts as passed. -/
def warn (c : CheckResult) (detail : String) : CheckResult :=
  { c with passed := true, skipped := true, detail := "⚠  " ++ detail }

end CheckResult

/-- The dict that `_recompute_hash` encodes. -/
def hashedContent (decision decisionContext governance determinism previousHash sequenceId : Json) : Json :=
  .obj [("decision", decision), ("decision_context", decisionContext), ("governance", governance),
    ("determinism", determinism), ("previous_hash", previousHash), ("sequence_id", sequenceId)]

/-- `_recompute_hash`, the same in both programs. -/
def recomputeHash (entry : Json) : Except PyErr String := do
  let ledger ← entry.getD "ledger" (.obj [])
  let decision ← entry.getD "decision" (.obj [])
  let decisionContext ← entry.getD "decision_context" (.obj [])
  let governance ← entry.getD "governance" (.obj [])
  let determinism ← entry.getD "determinism" (.obj [])
  let previousHash ← ledger.getD "previous_hash" (.str "")
  let sequenceId ← ledger.getD "sequence_id" (.int 0)
  pure (sha256Hex (dumps (hashedContent decision decisionContext governance determinism previousHash sequenceId)))

/-- Check 2: `package_hash`. -/
def checkPackageHash (package : Json) (ledger : List Json) : Except PyErr CheckResult := do
  let c := CheckResult.new "Package untampered"
  let stored ← package.getD "package_hash" (.str "")
  if stored.truthy then
    if stored = .str (packageHash ledger) then
      pure (c.ok "SHA-256 of full ledger matches package_hash")
    else do
      let text ← stored.pySlice 32
      pure (c.fail ("Package hash mismatch — content was modified after export.\n  stored:   " ++ text ++
        "...\n  computed: " ++ slice 32 (packageHash ledger) ++ "..."))
  else
    pure (c.warn ("No package_hash field in proof — tamper check skipped. " ++
      "Cannot confirm this package was not modified after export."))

/-- The loop of check 3; `prevHash` is `None` before the first entry.  The failure,
if there is one. -/
def chainLoop : Json → List Json → Except PyErr (Option String)
  | _, [] => pure none
  | prevHash, entry :: rest => do
    let block ← entry.getD "ledger" (.obj [])
    let storedHash ← block.getD "current_hash" (.str "")
    let previousHash ← block.getD "previous_hash" (.str genesisHash)
    let seqId ← block.getD "sequence_id" (.str "?")
    let computed ← recomputeHash entry
    if storedHash = .str computed then
      if previousHash = (if prevHash.truthy then prevHash else .str genesisHash) then
        chainLoop storedHash rest
      else
        pure (some ("Chain broken at sequence_id=" ++ seqId.pyStr ++
          ".\n  previous_hash does not match prior proof's current_hash." ++
          "\n  This suggests a proof was inserted, deleted, or reordered."))
    else do
      let text ← storedHash.pySlice 32
      pure (some ("Hash mismatch at sequence_id=" ++ seqId.pyStr ++
        ".\n  The proof content was modified after it was signed.\n  stored:   " ++ text ++
        "...\n  computed: " ++ slice 32 computed ++ "..."))

/-- `seq_range`. -/
def seqRange (seqIds : List Json) : String :=
  let first := (seqIds.head?.getD .null).pyStr
  if seqIds.length > 1 then "sequence " ++ first ++ "→" ++ (seqIds.getLast?.getD .null).pyStr
  else "sequence " ++ first

/-- Check 3: the hash of every entry and the links between them, with what it adds
to the metadata. -/
def checkChain (ledger : List Json) : Except PyErr (CheckResult × List (String × Json)) := do
  let c := CheckResult.new "Chain valid"
  let failure ← chainLoop .null ledger
  match failure with
  | some reason => pure (c.fail reason, [])
  | none => do
    let seqIds ← ledger.mapM fun e => do
      let block ← e.getD "ledger" (.obj [])
      block.getD "sequence_id" (.str "?")
    let decision ← (ledger.getLast?.getD .null).getD "decision" (.obj [])
    let finalState ← decision.getD "to_state" (.str "unknown")
    pure (c.ok (toString ledger.length ++ " proofs, " ++ seqRange seqIds),
      [("final_state", finalState), ("seq_range", .str (seqRange seqIds))])

/-- `_verify_ed25519`: what is no hexadecimal text does not verify. -/
def verifyHexEd25519 (ed : Ed25519) (publicKey : Json) (messageHex : String) (signature : Json) : Bool :=
  match publicKey, fromHex messageHex, signature with
  | .str pub, some message, .str sig => verifyEd25519 ed pub message sig
  | _, _, _ => false

theorem verifyHexEd25519_toHex (ed : Ed25519) (pub sig : Bytes) (t : String) :
    verifyHexEd25519 ed (.str (toHex pub)) (sha256Hex t) (.str (toHex sig)) = ed pub (sha256 (utf8 t)) sig := by
  simp only [verifyHexEd25519, fromHex_sha256Hex, verifyEd25519, fromHex_toHex]

/-- Check 4: the signature over the instance root. -/
def checkSigner (ed : Ed25519) (package proofBlock : Json) (ledger : List Json) :
    Except PyErr (CheckResult × List (String × Json)) := do
  let c := CheckResult.new "Original signer verified"
  let publicKey ← package.getD "public_key" (.str "")
  let signature ← package.getD "signature" (.str "")
  let storedRoot ← proofBlock.getD "instance_root" (.str "")
  if !publicKey.truthy || !signature.truthy then
    pure (c.fail "Missing public_key or signature in package.", [])
  else do
    let computedRoot ← instanceRoot ledger
    if storedRoot.truthy && storedRoot ≠ .str computedRoot then do
      let text ← storedRoot.pySlice 32
      pure (c.fail ("Instance root mismatch.\n  stored:   " ++ text ++ "...\n  computed: " ++
        slice 32 computedRoot ++ "..."), [])
    else if verifyHexEd25519 ed publicKey computedRoot signature then
      let keyId := "env-" ++ slice 16 publicKey.pyStr
      pure (c.ok ("Signed by " ++ keyId ++ " — signature mathematically valid"),
        [("key_id", .str keyId), ("public_key", publicKey)])
    else
      pure (c.fail ("Ed25519 signature does not match the embedded public key.\n" ++
        "  The package may have been re-signed or the signature field is corrupted."), [])

/-- `verify_package`: the verdict, the checks and the metadata. -/
def verifyPackage (ed : Ed25519) (package : Json) :
    Except PyErr (Bool × List CheckResult × List (String × Json)) := do
  let c := CheckResult.new "Package structure valid"
  let type ← package.getD "type" .null
  if type ≠ .str packageType then
    pure (false, [c.fail ("Unknown type: " ++ type.repr ++ ". Expected 'provable-ai-proof-package'.")], [])
  else do
    let proofBlock ← package.getD "proof" (.obj [])
    let ledger ← proofBlock.getD "ledger" (.arr [])
    match ledger with
    | .arr [] => pure (false, [c.fail "proof.ledger is empty — no decisions recorded."], [])
    | .arr (e :: es) => do
      let instanceId ← proofBlock.getD "instance_id" (.str "unknown")
      let c2 ← checkPackageHash package (e :: es)
      let (c3, meta3) ← checkChain (e :: es)
      let (c4, meta4) ← checkSigner ed package proofBlock (e :: es)
      let checks := [c.ok (toString (e :: es).length ++ " proof(s) in package"), c2, c3, c4]
      pure (checks.all CheckResult.passed, checks,
        [("ledger", .arr (e :: es)), ("instance_id", instanceId)] ++ meta3 ++ meta4)
    | _ => pure (false, [c.fail "proof.ledger must be a list."], [])

/-! ### `offline_verify.py` -/

/-- The loop of check 2. -/
def offlineLoop : Option Json → List Json → Except PyErr (Option String)
  | _, [] => pure none
  | prevHash, entry :: rest => do
    let storedHash ← entryHash entry
    let computed ← recomputeHash entry
    let block ← entry.getD "ledger" (.obj [])
    if storedHash ≠ .str computed then do
      let seqId ← block.getD "sequence_id" .null
      pure (some ("Hash mismatch at seq " ++ seqId.pyStr))
    else do
      let chainPrev ← block.getD "previous_hash" (.str "")
      if prevHash.any (chainPrev ≠ ·) then pure (some "Chain broken: previous_hash mismatch")
      else offlineLoop (some storedHash) rest

/-- `verify_proof` on the package it has read: valid, the message and the final
state.  The text of an exception of PyNaCl is left out of its message. -/
def offlineVerify (ed : Ed25519) (package : Json) : Except PyErr (Bool × String × Option Json) := do
  let type ← package.getD "type" .null
  if type ≠ .str packageType then pure (false, "Unknown type: " ++ type.pyStr, none)
  else do
    let proofBlock ← package.getD "proof" (.obj [])
    let ledger ← proofBlock.getD "ledger" (.arr [])
    let storedRoot ← proofBlock.getD "instance_root" (.str "")
    let storedHash ← package.getD "package_hash" (.str "")
    let sigHex ← package.getD "signature" (.str "")
    let pubKeyHex ← package.getD "public_key" (.str "")
    if !ledger.truthy then pure (true, "No transitions", none)
    else if storedHash.truthy && storedHash ≠ .str (sha256Hex (dumps ledger)) then do
      let text ← storedHash.pySlice 16
      pure (false, "Package hash mismatch: ledger was modified after export. stored=" ++ text ++
        "... computed=" ++ slice 16 (sha256Hex (dumps ledger)) ++ "...", none)
    else
      match ledger with
      | .arr entries => do
        let failure ← offlineLoop none entries
        match failure with
        | some reason => pure (false, reason, none)
        | none => do
          let computedRoot ← instanceRoot entries
          if storedRoot.truthy && storedRoot ≠ .str computedRoot then
            pure (false, "Instance root mismatch", none)
          else if sigHex.truthy && pubKeyHex.truthy && !verifyHexEd25519 ed pubKeyHex computedRoot sigHex then
            pure (false, "Signature invalid: ", none)
          else do
            let decision ← (entries.getLast?.getD .null).getD "decision" (.obj [])
            let finalState ← decision.getD "to_state" .null
            pure (true, "Proof valid", some finalState)
      -- the loop runs over characters or keys, or over nothing
      | .str _ => .error .attributeError
      | .obj _ => .error .attributeError
      | _ => .error .typeError

/-- `verify_proof` of the file with this text. -/
def offlineVerifyFile (ed : Ed25519) (text : String) : Except PyErr (Bool × String × Option Json) :=
  match loads text with
  | some package => offlineVerify ed package
  | none => pure (false, "Cannot read proof file: ", none)

/-! ### The entries of a ledger -/

/-- The ledger block of an entry, by default empty. -/
def entryBlock (e : Json) : Json := (e.get? "ledger").getD (.obj [])

/-- A hashed section of an entry, by default empty. -/
def entrySection (e : Json) (k : String) : Json := (e.get? k).getD (.obj [])

/-- What is hashed of an entry. -/
def entryContent (e : Json) : Json :=
  hashedContent (entrySection e "decision") (entrySection e "decision_context") (entrySection e "governance")
    (entrySection e "determinism") (((entryBlock e).get? "previous_hash").getD (.str ""))
    (((entryBlock e).get? "sequence_id").getD (.int 0))

/-- The recomputed hash. -/
def contentHash (e : Json) : String := sha256Hex (dumps (entryContent e))

/-- The stored hash. -/
def storedHash (e : Json) : Json := ((entryBlock e).get? "current_hash").getD (.str "")

/-- The hash of the entry before, as the chain check reads it. -/
def storedLink (e : Json) : Json := ((entryBlock e).get? "previous_hash").getD (.str genesisHash)

/-- An entry the checks can read: a dict with a dict as ledger block. -/
def Readable (e : Json) : Prop := e.isObj = true ∧ (entryBlock e).isObj = true

theorem recomputeHash_eq_ok {e : Json} {h : String} :
    recomputeHash e = .ok h ↔ Readable e ∧ contentHash e = h := by
  simp only [recomputeHash, bind_eq_ok_iff, Json.getD_eq_ok, pure, Except.pure, Except.ok.injEq]
  constructor
  · rintro ⟨_, ⟨he, rfl⟩, _, ⟨-, rfl⟩, _, ⟨-, rfl⟩, _, ⟨-, rfl⟩, _, ⟨-, rfl⟩, _, ⟨hb, rfl⟩, _, ⟨-, rfl⟩, rfl⟩
    exact ⟨⟨he, hb⟩, rfl⟩
  · rintro ⟨⟨he, hb⟩, rfl⟩
    exact ⟨_, ⟨he, rfl⟩, _, ⟨he, rfl⟩, _, ⟨he, rfl⟩, _, ⟨he, rfl⟩, _, ⟨he, rfl⟩, _, ⟨hb, rfl⟩, _, ⟨hb, rfl⟩, rfl⟩

theorem entryHash_eq_ok {e w : Json} : entryHash e = .ok w ↔ Readable e ∧ storedHash e = w := by
  simp only [entryHash, bind_eq_ok_iff, Json.getD_eq_ok]
  constructor
  · rintro ⟨_, ⟨he, rfl⟩, hb, rfl⟩
    exact ⟨⟨he, hb⟩, rfl⟩
  · rintro ⟨⟨he, hb⟩, rfl⟩
    exact ⟨_, ⟨he, rfl⟩, hb, rfl⟩

/-- Every entry carries its recomputed hash and that of the entry before it, the
first one `prev`. -/
def ChainOk : String → List Json → Prop
  | _, [] => True
  | prev, e :: es =>
    Readable e ∧ storedHash e = .str (contentHash e) ∧ storedLink e = .str prev ∧ ChainOk (contentHash e) es

theorem truthy_of_length {s : String} (h : 0 < s.length) : (Json.str s).truthy = true := by
  have hne : s ≠ "" := by rintro rfl; simp at h
  simp [Json.truthy, hne]

theorem truthy_sha256Hex (s : String) : (Json.str (sha256Hex s)).truthy = true :=
  truthy_of_length (by simp)

/-- **The chain loop** finds no failure exactly on a chain. -/
theorem chainLoop_eq_none {es : List Json} : ∀ {v : Json} {prev : String},
    (if v.truthy then v else .str genesisHash) = .str prev → (chainLoop v es = .ok none ↔ ChainOk prev es) := by
  induction es with
  | nil => intro v prev _; exact ⟨fun _ => trivial, fun _ => rfl⟩
  | cons e es ih =>
    intro v prev hv
    have hnext := @ih (.str (contentHash e)) (contentHash e)
      (by rw [contentHash, if_pos (truthy_sha256Hex _)])
    simp only [chainLoop, bind_eq_ok_iff, Json.getD_eq_ok, recomputeHash_eq_ok, hv, ChainOk]
    constructor
    · rintro ⟨_, ⟨he, rfl⟩, _, ⟨hb, rfl⟩, _, ⟨-, rfl⟩, _, ⟨-, rfl⟩, _, ⟨-, rfl⟩, h⟩
      split_ifs at h with hs hl
      · have hs : storedHash e = .str (contentHash e) := hs
        have h : chainLoop (storedHash e) es = .ok none := h
        rw [hs] at h
        exact ⟨⟨he, hb⟩, hs, hl, hnext.1 h⟩
      · cases h
      · obtain ⟨t, -, h⟩ := bind_eq_ok_iff.1 h
        cases h
    · rintro ⟨⟨he, hb⟩, hs, hl, hrest⟩
      refine ⟨entryBlock e, ⟨he, rfl⟩, storedHash e, ⟨hb, rfl⟩, storedLink e, ⟨hb, rfl⟩, _, ⟨hb, rfl⟩,
        contentHash e, ⟨⟨he, hb⟩, rfl⟩, ?_⟩
      rw [if_pos hs, if_pos hl, hs]
      exact hnext.2 hrest

theorem ChainOk.readable {prev : String} {es : List Json} (h : ChainOk prev es) : ∀ e ∈ es, Readable e := by
  induction es generalizing prev with
  | nil => simp
  | cons e es ih => exact List.forall_mem_cons.2 ⟨h.1, ih h.2.2.2⟩

theorem ChainOk.stored {prev : String} {es : List Json} (h : ChainOk prev es) :
    ∀ e ∈ es, storedHash e = .str (contentHash e) := by
  induction es generalizing prev with
  | nil => simp
  | cons e es ih => exact List.forall_mem_cons.2 ⟨h.2.1, ih h.2.2.2⟩

/-- The root of a chain: the SHA-256 of its joined hashes. -/
def chainRoot (es : List Json) : String := sha256Hex (String.join (es.map contentHash))

theorem ChainOk.instanceRoot {prev : String} {es : List Json} (h : ChainOk prev es) :
    instanceRoot es = .ok (chainRoot es) := by
  have hm : es.mapM entryHash = .ok (es.map fun e => .str (contentHash e)) :=
    mapM_ok_map _ fun e he => entryHash_eq_ok.2 ⟨h.readable e he, h.stored e he⟩
  have hj : joinStrs (es.map fun e => .str (contentHash e)) = .ok (String.join (es.map contentHash)) :=
    joinStrs_eq_ok.2 ⟨es.map contentHash, by simp, rfl⟩
  rw [ProvableAi.instanceRoot, hm]
  simp only [bind, Except.bind, hj]
  rfl

/-! ### What `verify_package` accepts -/

/-- A field of a package that is read with the empty text as default. -/
def textField (j : Json) (k : String) : Json := (j.get? k).getD (.str "")

theorem getD_textField {j : Json} {k : String} {w : Json} :
    j.getD k (.str "") = .ok w ↔ j.isObj = true ∧ textField j k = w := Json.getD_eq_ok

/-- The proof block of a package, by default empty. -/
def proofBlock (j : Json) : Json := (j.get? "proof").getD (.obj [])

/-- The section the final state is read from. -/
def lastDecision (es : List Json) : Json := entrySection (es.getLast?.getD .null) "decision"

section

variable {ed : Ed25519} {j : Json} {es : List Json}

theorem checkPackageHash_passed {c : CheckResult} (h : checkPackageHash j es = .ok c) :
    c.skipped = !(textField j "package_hash").truthy ∧
      (c.passed = true ↔ ((textField j "package_hash").truthy = true →
        textField j "package_hash" = .str (packageHash es))) := by
  simp only [checkPackageHash, bind_eq_ok_iff, getD_textField] at h
  obtain ⟨stored, ⟨-, rfl⟩, h⟩ := h
  split_ifs at h with ht hs
  · obtain rfl := Except.ok.inj h
    exact ⟨by rw [ht]; rfl, fun _ _ => hs, fun _ => rfl⟩
  · obtain ⟨t, -, h⟩ := bind_eq_ok_iff.1 h
    obtain rfl := Except.ok.inj h
    simp [CheckResult.fail, CheckResult.new, ht, hs]
  · obtain rfl := Except.ok.inj h
    simp [CheckResult.warn, CheckResult.new, ht]

theorem checkPackageHash_returns (hj : j.isObj = true)
    (h : (textField j "package_hash").truthy = true → textField j "package_hash" = .str (packageHash es)) :
    ∃ c, checkPackageHash j es = .ok c := by
  simp only [checkPackageHash, bind_eq_ok_iff, getD_textField]
  by_cases ht : (textField j "package_hash").truthy = true
  · exact ⟨_, _, ⟨hj, rfl⟩, by rw [if_pos ht, if_pos (h ht)]; rfl⟩
  · exact ⟨_, _, ⟨hj, rfl⟩, by rw [if_neg ht]; rfl⟩

theorem checkChain_passed {c : CheckResult} {m : List (String × Json)} (h : checkChain es = .ok (c, m)) :
    c.skipped = false ∧ (c.passed = true → ChainOk genesisHash es ∧ (lastDecision es).isObj = true) := by
  rw [checkChain] at h
  obtain ⟨failure, hloop, h⟩ := bind_eq_ok_iff.1 h
  cases failure with
  | some reason =>
    obtain ⟨rfl, -⟩ := Prod.mk.inj (Except.ok.inj h)
    simp [CheckResult.fail, CheckResult.new]
  | none =>
    simp only [bind_eq_ok_iff, Json.getD_eq_ok] at h
    obtain ⟨seqIds, -, _, ⟨-, rfl⟩, _, ⟨hd, rfl⟩, h⟩ := h
    obtain ⟨rfl, -⟩ := Prod.mk.inj (Except.ok.inj h)
    exact ⟨rfl, fun _ => ⟨(chainLoop_eq_none rfl).1 hloop, hd⟩⟩

theorem checkChain_returns (hne : es ≠ []) (h : ChainOk genesisHash es) (hd : (lastDecision es).isObj = true) :
    ∃ detail m, checkChain es = .ok ((CheckResult.new "Chain valid").ok detail, m) := by
  have hseq : es.mapM (fun e => do
      let block ← e.getD "ledger" (.obj [])
      block.getD "sequence_id" (.str "?")) = .ok (es.map fun e => ((entryBlock e).get? "sequence_id").getD (.str "?")) := by
    refine mapM_ok_map _ fun e he => ?_
    obtain ⟨h₁, h₂⟩ := h.readable e he
    exact bind_eq_ok_iff.2 ⟨_, Json.getD_eq_ok.2 ⟨h₁, rfl⟩, Json.getD_eq_ok.2 ⟨h₂, rfl⟩⟩
  have hlast : (es.getLast?.getD .null).isObj = true := by
    rw [List.getLast?_eq_some_getLast hne]
    exact (h.readable _ (List.getLast_mem hne)).1
  exact ⟨_, _, bind_eq_ok_iff.2 ⟨none, (chainLoop_eq_none rfl).2 h, bind_eq_ok_iff.2 ⟨_, hseq,
    bind_eq_ok_iff.2 ⟨_, Json.getD_eq_ok.2 ⟨hlast, rfl⟩,
      bind_eq_ok_iff.2 ⟨_, Json.getD_eq_ok.2 ⟨hd, rfl⟩, rfl⟩⟩⟩⟩⟩

theorem checkSigner_passed {pb : Json} {c : CheckResult} {m : List (String × Json)} {root : String}
    (hroot : instanceRoot es = .ok root) (h : checkSigner ed j pb es = .ok (c, m)) :
    c.skipped = false ∧ (c.passed = true →
      (textField j "public_key").truthy = true ∧ (textField j "signature").truthy = true ∧
      ((textField pb "instance_root").truthy = true → textField pb "instance_root" = .str root) ∧
      verifyHexEd25519 ed (textField j "public_key") root (textField j "signature") = true) := by
  simp only [checkSigner, bind_eq_ok_iff, getD_textField] at h
  obtain ⟨_, ⟨-, rfl⟩, _, ⟨-, rfl⟩, _, ⟨-, rfl⟩, h⟩ := h
  split_ifs at h with hmiss
  · obtain ⟨rfl, -⟩ := Prod.mk.inj (Except.ok.inj h)
    simp [CheckResult.fail, CheckResult.new]
  · obtain ⟨r, hr, h⟩ := bind_eq_ok_iff.1 h
    obtain rfl := Except.ok.inj (hroot.symm.trans hr)
    split_ifs at h with hmis hver
    · obtain ⟨t, -, h⟩ := bind_eq_ok_iff.1 h
      obtain ⟨rfl, -⟩ := Prod.mk.inj (Except.ok.inj h)
      simp [CheckResult.fail, CheckResult.new]
    · obtain ⟨rfl, -⟩ := Prod.mk.inj (Except.ok.inj h)
      simp only [Bool.or_eq_true, Bool.not_eq_true', not_or, Bool.not_eq_false] at hmiss
      simp only [Bool.and_eq_true, decide_eq_true_eq, not_and, not_not] at hmis
      exact ⟨rfl, fun _ => ⟨hmiss.1, hmiss.2, hmis, hver⟩⟩
    · obtain ⟨rfl, -⟩ := Prod.mk.inj (Except.ok.inj h)
      simp [CheckResult.fail, CheckResult.new]

theorem checkSigner_returns {pb : Json} {root : String} (hj : j.isObj = true) (hpb : pb.isObj = true)
    (hroot : instanceRoot es = .ok root) (hpk : (textField j "public_key").truthy = true)
    (hsg : (textField j "signature").truthy = true)
    (hsr : (textField pb "instance_root").truthy = true → textField pb "instance_root" = .str root)
    (hv : verifyHexEd25519 ed (textField j "public_key") root (textField j "signature") = true) :
    ∃ detail m, checkSigner ed j pb es = .ok ((CheckResult.new "Original signer verified").ok detail, m) := by
  have hmiss : ¬ ((!(textField j "public_key").truthy || !(textField j "signature").truthy) = true) := by
    simp [hpk, hsg]
  have hmis : ¬ (((textField pb "instance_root").truthy &&
      decide (textField pb "instance_root" ≠ .str root)) = true) := by simpa using hsr
  simp only [checkSigner, bind_eq_ok_iff, getD_textField]
  exact ⟨_, _, _, ⟨hj, rfl⟩, _, ⟨hj, rfl⟩, _, ⟨hpb, rfl⟩, (if_neg hmiss).trans
    (bind_eq_ok_iff.2 ⟨root, hroot, (if_neg hmis).trans ((if_pos hv).trans rfl)⟩)⟩

/-- What an accepted package satisfies: its ledger `es` is a chain, the hash of the
package matches where there is one, and the key's signature over the root of the
chain verifies. -/
structure Accepted (ed : Ed25519) (j : Json) (es : List Json) : Prop where
  isObj : j.isObj = true
  type : j.get? "type" = some (.str packageType)
  proof : (proofBlock j).isObj = true
  ledger : (proofBlock j).get? "ledger" = some (.arr es)
  ne : es ≠ []
  packageHash : (textField j "package_hash").truthy = true → textField j "package_hash" = .str (packageHash es)
  chain : ChainOk genesisHash es
  finalState : (lastDecision es).isObj = true
  publicKey : (textField j "public_key").truthy = true
  signature : (textField j "signature").truthy = true
  root : (textField (proofBlock j) "instance_root").truthy = true →
    textField (proofBlock j) "instance_root" = .str (chainRoot es)
  verifies : verifyHexEd25519 ed (textField j "public_key") (chainRoot es) (textField j "signature") = true

/-- **What `verify_package` accepts.** -/
theorem accepted_of_verifyPackage {cs : List CheckResult} {m : List (String × Json)}
    (h : verifyPackage ed j = .ok (true, cs, m)) : ∃ es, Accepted ed j es := by
  simp only [verifyPackage, bind_eq_ok_iff, Json.getD_eq_ok] at h
  obtain ⟨type, ⟨hj, htype⟩, h⟩ := h
  split_ifs at h with ht
  · cases h
  simp only [bind_eq_ok_iff, Json.getD_eq_ok] at h
  obtain ⟨pb, ⟨-, hpb⟩, led, ⟨hpobj, hled⟩, h⟩ := h
  obtain rfl : proofBlock j = pb := hpb
  match led, h with
  | .arr (e :: es), h =>
    simp only [bind_eq_ok_iff] at h
    obtain ⟨i, -, c2, h2, ⟨c3, m3⟩, h3, ⟨c4, m4⟩, h4, h⟩ := h
    obtain ⟨hall, -, -⟩ := by simpa [pure, Except.pure] using h
    obtain ⟨-, hp2, hp3, hp4⟩ := hall
    have hchain := (checkChain_passed h3).2 hp3
    have hsign := (checkSigner_passed hchain.1.instanceRoot h4).2 hp4
    have hty : j.get? "type" = some (.str packageType) := by
      have ht : type = .str packageType := not_not.1 ht
      rw [ht] at htype
      cases hg : j.get? "type" with
      | none => rw [hg] at htype; cases htype
      | some w => rw [hg] at htype; exact congrArg some htype
    have hlg : (proofBlock j).get? "ledger" = some (.arr (e :: es)) := by
      cases hg : (proofBlock j).get? "ledger" with
      | none => rw [hg] at hled; cases hled
      | some w => rw [hg] at hled; exact congrArg some hled
    exact ⟨e :: es, hj, hty, hpobj, hlg, by simp, (checkPackageHash_passed h2).2.1 hp2, hchain.1, hchain.2,
      hsign.1, hsign.2.1, hsign.2.2.1, hsign.2.2.2⟩
  | .arr [], h => cases h
  | .null, h => cases h
  | .bool _, h => cases h
  | .int _, h => cases h
  | .float _, h => cases h
  | .str _, h => cases h
  | .obj _, h => cases h

/-- A package that satisfies `Accepted` passes the four checks, and skips the one of
its hash only where it has none. -/
theorem Accepted.verifyPackage (h : Accepted ed j es) :
    ∃ cs m, verifyPackage ed j = .ok (true, cs, m) ∧ cs.length = 4 ∧
      ∀ c ∈ cs, c.passed = true ∧ (c.skipped = true → (textField j "package_hash").truthy = false) := by
  obtain ⟨e, rest, rfl⟩ := List.exists_cons_of_ne_nil h.ne
  obtain ⟨c2, h2⟩ := checkPackageHash_returns h.isObj h.packageHash
  obtain ⟨d3, m3, h3⟩ := checkChain_returns h.ne h.chain h.finalState
  obtain ⟨d4, m4, h4⟩ := checkSigner_returns h.isObj h.proof h.chain.instanceRoot h.publicKey h.signature h.root
    h.verifies
  obtain ⟨hskip, hpass⟩ := checkPackageHash_passed h2
  have hpass := hpass.2 h.packageHash
  have htype : j.getD "type" .null = .ok (.str packageType) :=
    Json.getD_eq_ok.2 ⟨h.isObj, by rw [h.type]; rfl⟩
  have hledger : (proofBlock j).getD "ledger" (.arr []) = .ok (.arr (e :: rest)) :=
    Json.getD_eq_ok.2 ⟨h.proof, by rw [h.ledger]; rfl⟩
  have hproof : j.getD "proof" (.obj []) = .ok (proofBlock j) := Json.getD_eq_ok.2 ⟨h.isObj, rfl⟩
  have hid : (proofBlock j).getD "instance_id" (.str "unknown") =
      .ok (((proofBlock j).get? "instance_id").getD (.str "unknown")) := Json.getD_eq_ok.2 ⟨h.proof, rfl⟩
  have hrun : ∃ m, verifyPackage ed j = .ok (true,
      [(CheckResult.new "Package structure valid").ok (toString (e :: rest).length ++ " proof(s) in package"), c2,
        (CheckResult.new "Chain valid").ok d3, (CheckResult.new "Original signer verified").ok d4], m) := by
    simp only [ProvableAi.verifyPackage, htype, hproof, hledger, hid, h2, h3, h4, ok_bind, ne_eq, not_true_eq_false,
      if_false, List.all_cons, List.all_nil, CheckResult.ok, hpass, Bool.and_self]
    exact ⟨_, rfl⟩
  obtain ⟨m, hrun⟩ := hrun
  refine ⟨_, m, hrun, rfl, ?_⟩
  simp only [List.forall_mem_cons]
  refine ⟨⟨rfl, by simp [CheckResult.ok, CheckResult.new]⟩, ⟨hpass, fun hs => ?_⟩,
    ⟨rfl, by simp [CheckResult.ok, CheckResult.new]⟩, ⟨rfl, by simp [CheckResult.ok, CheckResult.new]⟩, by simp⟩
  rw [hskip, Bool.not_eq_true'] at hs
  exact hs

/-! ### What `offline_verify` accepts -/

/-- On a chain whose entries carry a `previous_hash` the other loop finds no failure
either. -/
theorem offlineLoop_eq_none {prev : String} {v : Option Json} (h : ChainOk prev es)
    (hlink : ∀ e ∈ es, ((entryBlock e).get? "previous_hash").isSome = true) (hv : ∀ w ∈ v, w = .str prev) :
    offlineLoop v es = .ok none := by
  induction es generalizing prev v with
  | nil => rfl
  | cons e es ih =>
    obtain ⟨hr, hs, hl, hrest⟩ := h
    obtain ⟨w, hw⟩ := Option.isSome_iff_exists.1 (hlink e (by simp))
    have hprev : w = .str prev := by
      rw [storedLink, hw] at hl
      exact hl
    have hany : ¬ (v.any (fun x => decide (w ≠ x)) = true) := by
      cases v with
      | none => simp
      | some x => simp [hv x rfl, hprev]
    have hstep := ih hrest (fun f hf => hlink f (List.mem_cons_of_mem _ hf)) (v := some (.str (contentHash e)))
      (by rintro _ ⟨⟩; rfl)
    refine bind_eq_ok_iff.2 ⟨_, entryHash_eq_ok.2 ⟨hr, hs⟩, bind_eq_ok_iff.2 ⟨_,
      recomputeHash_eq_ok.2 ⟨hr, rfl⟩, bind_eq_ok_iff.2 ⟨entryBlock e, Json.getD_eq_ok.2 ⟨hr.1, rfl⟩, ?_⟩⟩⟩
    refine (if_neg (not_not.2 rfl)).trans (bind_eq_ok_iff.2 ⟨w, Json.getD_eq_ok.2 ⟨hr.2, by rw [hw]; rfl⟩, ?_⟩)
    exact (if_neg hany).trans hstep

theorem Accepted.offlineVerify (h : Accepted ed j es)
    (hlink : ∀ e ∈ es, ((entryBlock e).get? "previous_hash").isSome = true) :
    ∃ state, offlineVerify ed j = .ok (true, "Proof valid", state) := by
  have htype : j.getD "type" .null = .ok (.str packageType) :=
    Json.getD_eq_ok.2 ⟨h.isObj, by rw [h.type]; rfl⟩
  have hledger : (proofBlock j).getD "ledger" (.arr []) = .ok (.arr es) :=
    Json.getD_eq_ok.2 ⟨h.proof, by rw [h.ledger]; rfl⟩
  have hlast : (es.getLast?.getD .null).isObj = true := by
    rw [List.getLast?_eq_some_getLast h.ne]
    exact (h.chain.readable _ (List.getLast_mem h.ne)).1
  have hloop := offlineLoop_eq_none (v := none) h.chain hlink (by simp)
  have hne : ¬ ((!(Json.arr es).truthy) = true) := by
    obtain ⟨e, rest, rfl⟩ := List.exists_cons_of_ne_nil h.ne
    simp [Json.truthy]
  have hhash : ¬ (((textField j "package_hash").truthy &&
      decide (textField j "package_hash" ≠ .str (sha256Hex (dumps (.arr es))))) = true) := by
    simpa [ProvableAi.packageHash] using h.packageHash
  have hroot : ¬ (((textField (proofBlock j) "instance_root").truthy &&
      decide (textField (proofBlock j) "instance_root" ≠ .str (chainRoot es))) = true) := by
    simpa using h.root
  have hsig : ¬ (((textField j "signature").truthy && (textField j "public_key").truthy &&
      !verifyHexEd25519 ed (textField j "public_key") (chainRoot es) (textField j "signature")) = true) := by
    simp [h.verifies]
  have hproof : j.getD "proof" (.obj []) = .ok (proofBlock j) := Json.getD_eq_ok.2 ⟨h.isObj, rfl⟩
  have htext : ∀ k, j.getD k (.str "") = .ok (textField j k) := fun k => getD_textField.2 ⟨h.isObj, rfl⟩
  have hstored : (proofBlock j).getD "instance_root" (.str "") = .ok (textField (proofBlock j) "instance_root") :=
    getD_textField.2 ⟨h.proof, rfl⟩
  have hdecision : (es.getLast?.getD .null).getD "decision" (.obj []) = .ok (lastDecision es) :=
    Json.getD_eq_ok.2 ⟨hlast, rfl⟩
  have hstate : (lastDecision es).getD "to_state" .null = .ok (((lastDecision es).get? "to_state").getD .null) :=
    Json.getD_eq_ok.2 ⟨h.finalState, rfl⟩
  simp only [ProvableAi.offlineVerify, htype, hproof, hledger, htext, hstored, hloop, h.chain.instanceRoot,
    hdecision, hstate, ok_bind, if_neg hne, if_neg hhash, if_neg hroot, if_neg hsig, ne_eq, not_true_eq_false,
    if_false]
  exact ⟨_, rfl⟩

end

end ProvableAi
