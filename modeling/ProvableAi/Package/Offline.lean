/-
# What the offline verifier leaves out

`tools/offline_verify.py` makes each of its checks only where the package has
something to check.  An empty ledger is accepted before any of them; an absent or
empty `package_hash` or `instance_root` is not compared; without a signature or a
key nothing is verified; and the first entry's `previous_hash` is compared with
nothing, `prev_hash` being `None` there.

`offlineVerify_accepts_iff` says what is accepted, field by field.  What the
program makes of the fields that are there is right: an accepted package is sound,
and `verify_package` accepts it without a skipped check, exactly if it is complete
(`offlineSound_iff`).
-/

import ProvableAi.Package.Verify

namespace ProvableAi

/-! ### The loop -/

/-- What the loop of `verify_proof` asks of the entries: each carries its recomputed
hash, and the hash of the entry before it where there is one. -/
def OfflineChain : Option String → List Json → Prop
  | _, [] => True
  | prev, e :: es =>
    Readable e ∧ storedHash e = .str (contentHash e) ∧
      (∀ p ∈ prev, ((entryBlock e).get? "previous_hash").getD (.str "") = .str p) ∧
        OfflineChain (some (contentHash e)) es

/-- The loop finds no failure exactly on such entries. -/
theorem offlineLoop_eq_none_iff {es : List Json} : ∀ {prev : Option String},
    offlineLoop (prev.map .str) es = .ok none ↔ OfflineChain prev es := by
  induction es with
  | nil => exact fun {prev} => ⟨fun _ => trivial, fun _ => rfl⟩
  | cons e es ih =>
    intro prev
    have hlink : ∀ w : Json, (prev.map Json.str).any (fun x => decide (w ≠ x)) = true ↔ ¬ ∀ p ∈ prev, w = .str p := by
      intro w
      cases prev <;> simp
    simp only [offlineLoop, bind_eq_ok_iff, entryHash_eq_ok, recomputeHash_eq_ok, Json.getD_eq_ok, OfflineChain]
    constructor
    · rintro ⟨_, ⟨hr, rfl⟩, _, ⟨-, rfl⟩, _, ⟨-, rfl⟩, h⟩
      by_cases hs : storedHash e = .str (contentHash e)
      · rw [if_neg (not_not.2 hs)] at h
        obtain ⟨w, hw, h⟩ := bind_eq_ok_iff.1 h
        have hw : ((entryBlock e).get? "previous_hash").getD (.str "") = w := (Json.getD_eq_ok.1 hw).2
        split_ifs at h with hl
        · cases h
        · rw [hlink, not_not] at hl
          rw [hs] at h
          rw [hw]
          exact ⟨hr, hs, hl, ih.1 h⟩
      · rw [if_pos hs] at h
        obtain ⟨w, -, h⟩ := bind_eq_ok_iff.1 h
        cases h
    · rintro ⟨hr, hs, hl, hrest⟩
      refine ⟨storedHash e, ⟨hr, rfl⟩, contentHash e, ⟨hr, rfl⟩, entryBlock e, ⟨hr.1, rfl⟩, ?_⟩
      rw [if_neg (not_not.2 hs)]
      refine bind_eq_ok_iff.2 ⟨_, Json.getD_eq_ok.2 ⟨hr.2, rfl⟩, ?_⟩
      rw [if_neg ((hlink _).not.2 (not_not.2 hl)), hs]
      exact ih.2 hrest

/-! ### What is accepted -/

/-- The ledger of a package, by default empty. -/
def ledgerField (j : Json) : Json := ((proofBlock j).get? "ledger").getD (.arr [])

/-- What the checks ask of a package with the ledger `es`. -/
structure OfflineChecked (ed : Ed25519) (j : Json) (es : List Json) : Prop where
  packageHash : (textField j "package_hash").truthy = true → textField j "package_hash" = .str (packageHash es)
  chain : OfflineChain none es
  root : (textField (proofBlock j) "instance_root").truthy = true →
    textField (proofBlock j) "instance_root" = .str (chainRoot es)
  signature : (textField j "signature").truthy = true → (textField j "public_key").truthy = true →
    verifyHexEd25519 ed (textField j "public_key") (chainRoot es) (textField j "signature") = true
  finalState : (lastDecision es).isObj = true

theorem OfflineChain.stored {prev : Option String} {es : List Json} (h : OfflineChain prev es) :
    ∀ e ∈ es, Readable e ∧ storedHash e = .str (contentHash e) := by
  induction es generalizing prev with
  | nil => simp
  | cons e es ih => exact List.forall_mem_cons.2 ⟨⟨h.1, h.2.1⟩, ih h.2.2.2⟩

theorem OfflineChain.instanceRoot {prev : Option String} {es : List Json} (h : OfflineChain prev es) :
    instanceRoot es = .ok (chainRoot es) := by
  have hm : es.mapM entryHash = .ok (es.map fun e => .str (contentHash e)) :=
    mapM_ok_map _ fun e he => entryHash_eq_ok.2 (h.stored e he)
  have hj : joinStrs (es.map fun e => .str (contentHash e)) = .ok (String.join (es.map contentHash)) :=
    joinStrs_eq_ok.2 ⟨es.map contentHash, by simp, rfl⟩
  rw [ProvableAi.instanceRoot, hm, ok_bind, hj]
  rfl

section

variable {ed : Ed25519} {j : Json} {es : List Json}

/-- `verify_proof` returns `True`. -/
def OfflineAccepts (ed : Ed25519) (j : Json) : Prop := ∃ message state, offlineVerify ed j = .ok (true, message, state)

/-- **What `verify_proof` accepts**: packages without a ledger, and those that pass
the checks of what they have. -/
theorem offlineVerify_accepts_iff : OfflineAccepts ed j ↔
    j.isObj = true ∧ j.get? "type" = some (.str packageType) ∧ (proofBlock j).isObj = true ∧
      ((ledgerField j).truthy = false ∨ ∃ es, es ≠ [] ∧ ledgerField j = .arr es ∧ OfflineChecked ed j es) := by
  have htype : (j.get? "type").getD .null = .str packageType ↔ j.get? "type" = some (.str packageType) := by
    cases j.get? "type" <;> simp
  constructor
  · rintro ⟨message, state, h⟩
    simp only [offlineVerify, bind_eq_ok_iff, Json.getD_eq_ok] at h
    obtain ⟨_, ⟨hj, rfl⟩, h⟩ := h
    split_ifs at h with ht
    · cases h
    simp only [bind_eq_ok_iff, Json.getD_eq_ok] at h
    obtain ⟨_, ⟨-, rfl⟩, led, ⟨hp, hled⟩, _, ⟨-, rfl⟩, _, ⟨-, rfl⟩, _, ⟨-, rfl⟩, _, ⟨-, rfl⟩, h⟩ := h
    have hled : ledgerField j = led := hled
    refine ⟨hj, htype.1 (not_not.1 ht), hp, ?_⟩
    rw [hled]
    split_ifs at h with hempty hpkg
    · left
      simpa using hempty
    · obtain ⟨t, -, h⟩ := bind_eq_ok_iff.1 h
      cases h
    right
    cases led with
    | arr es =>
      obtain ⟨failure, hloop, h⟩ := bind_eq_ok_iff.1 h
      cases failure with
      | some reason => cases h
      | none =>
        have hchain : OfflineChain none es := offlineLoop_eq_none_iff.1 hloop
        obtain ⟨root, hroot, h⟩ := bind_eq_ok_iff.1 h
        obtain rfl := Except.ok.inj (hchain.instanceRoot.symm.trans hroot)
        split_ifs at h with hr hs
        · cases h
        · cases h
        simp only [bind_eq_ok_iff, Json.getD_eq_ok] at h
        obtain ⟨_, ⟨-, rfl⟩, _, ⟨hd, -⟩, -⟩ := h
        simp only [Bool.and_eq_true, decide_eq_true_eq, not_and, not_not, Bool.not_eq_true', Bool.not_eq_false] at hpkg hr hs
        have hne : es ≠ [] := by
          rintro rfl
          exact hempty rfl
        exact ⟨es, hne, rfl, hpkg, hchain, hr, fun h₁ h₂ => hs ⟨h₁, h₂⟩, hd⟩
    | _ => cases h
  · rintro ⟨hj, ht, hp, h⟩
    have htype : j.getD "type" .null = .ok (.str packageType) := Json.getD_eq_ok.2 ⟨hj, htype.2 ht⟩
    have hproof : j.getD "proof" (.obj []) = .ok (proofBlock j) := Json.getD_eq_ok.2 ⟨hj, rfl⟩
    have hledger : (proofBlock j).getD "ledger" (.arr []) = .ok (ledgerField j) := Json.getD_eq_ok.2 ⟨hp, rfl⟩
    have htext : ∀ k, j.getD k (.str "") = .ok (textField j k) := fun k => getD_textField.2 ⟨hj, rfl⟩
    have hstored : (proofBlock j).getD "instance_root" (.str "") = .ok (textField (proofBlock j) "instance_root") :=
      getD_textField.2 ⟨hp, rfl⟩
    rw [OfflineAccepts]
    simp only [offlineVerify, htype, hproof, hledger, htext, hstored, ok_bind, ne_eq, not_true_eq_false, if_false]
    rcases h with hfalsy | ⟨es, hne, hes, hc⟩
    · exact ⟨_, _, by rw [hfalsy]; rfl⟩
    have hempty : ¬ ((!(Json.arr es).truthy) = true) := by
      obtain ⟨e, rest, rfl⟩ := List.exists_cons_of_ne_nil hne
      simp [Json.truthy]
    have hpkg : ¬ (((textField j "package_hash").truthy &&
        decide (textField j "package_hash" ≠ .str (sha256Hex (dumps (.arr es))))) = true) := by
      simpa [ProvableAi.packageHash] using hc.packageHash
    have hroot : ¬ (((textField (proofBlock j) "instance_root").truthy &&
        decide (textField (proofBlock j) "instance_root" ≠ .str (chainRoot es))) = true) := by
      simpa using hc.root
    have hsig : ¬ (((textField j "signature").truthy && (textField j "public_key").truthy &&
        !verifyHexEd25519 ed (textField j "public_key") (chainRoot es) (textField j "signature")) = true) := by
      simpa using hc.signature
    have hloop : offlineLoop none es = .ok none := offlineLoop_eq_none_iff.2 hc.chain
    have hlast : (es.getLast?.getD .null).isObj = true := by
      rw [List.getLast?_eq_some_getLast hne]
      exact (hc.chain.stored _ (List.getLast_mem hne)).1.1
    have hdecision : (es.getLast?.getD .null).getD "decision" (.obj []) = .ok (lastDecision es) :=
      Json.getD_eq_ok.2 ⟨hlast, rfl⟩
    have hstate : (lastDecision es).getD "to_state" .null = .ok (((lastDecision es).get? "to_state").getD .null) :=
      Json.getD_eq_ok.2 ⟨hc.finalState, rfl⟩
    simp only [hes, hloop, hc.chain.instanceRoot, hdecision, hstate, ok_bind, if_neg hempty, if_neg hpkg, if_neg hroot,
      if_neg hsig]
    exact ⟨_, _, rfl⟩

/-! ### Soundness -/

/-- The `previous_hash` of an entry, where it has one. -/
def previousHash? (e : Json) : Option Json := (entryBlock e).get? "previous_hash"

/-- What is asked of an accepted package. -/
structure OfflineSound (ed : Ed25519) (j : Json) (es : List Json) : Prop where
  type : j.get? "type" = some (.str packageType)
  ledger : (proofBlock j).get? "ledger" = some (.arr es)
  ne : es ≠ []
  packageHash : j.get? "package_hash" = some (.str (packageHash es))
  hashes : ∀ e ∈ es, storedHash e = .str (contentHash e)
  /-- The first link is the genesis, each later one the hash before it. -/
  links : es.map previousHash? = ((.str genesisHash :: es.map storedHash).take es.length).map some
  root : (proofBlock j).get? "instance_root" = some (.str (chainRoot es))
  signed : ∃ publicKey signature, j.get? "public_key" = some publicKey ∧ j.get? "signature" = some signature ∧
    verifyHexEd25519 ed publicKey (chainRoot es) signature = true
  /-- `verify_package` accepts the package, and skips no check. -/
  verifyPackage : ∃ checks metadata, verifyPackage ed j = .ok (true, checks, metadata) ∧
    ∀ c ∈ checks, c.skipped = false

/-- The package has everything that the checks are about: a ledger that begins at the
genesis, both hashes, a signature and a key. -/
structure Complete (j : Json) : Prop where
  ledger : (ledgerField j).truthy = true
  packageHash : (textField j "package_hash").truthy = true
  genesis : ∀ e es, ledgerField j = .arr (e :: es) → previousHash? e = some (.str genesisHash)
  root : (textField (proofBlock j) "instance_root").truthy = true
  signature : (textField j "signature").truthy = true
  publicKey : (textField j "public_key").truthy = true

/-- A text field that is not empty is there. -/
theorem get?_of_truthy {k : String} (h : (textField j k).truthy = true) : j.get? k = some (textField j k) := by
  rw [textField] at h ⊢
  cases hk : j.get? k with
  | none => rw [hk] at h; exact absurd h (by decide)
  | some v => rfl

theorem textField_eq {k : String} {v : Json} (h : j.get? k = some v) : textField j k = v := by rw [textField, h]; rfl

theorem ledgerField_eq_arr {es : List Json} (hne : es ≠ []) :
    ledgerField j = .arr es ↔ (proofBlock j).get? "ledger" = some (.arr es) := by
  rw [ledgerField]
  cases (proofBlock j).get? "ledger" with
  | none => simp [Ne.symm hne]
  | some v => simp

/-- The loop's links, with the first one known. -/
theorem OfflineChain.chainOk {es : List Json} : ∀ {prev : String}, OfflineChain (some prev) es → prev ≠ "" →
    ChainOk prev es ∧ es.map previousHash? = ((.str prev :: es.map storedHash).take es.length).map some := by
  induction es with
  | nil => exact fun _ _ => ⟨trivial, rfl⟩
  | cons e es ih =>
    intro prev h hne
    obtain ⟨hr, hs, hl, hrest⟩ := h
    have hp : previousHash? e = some (.str prev) := by
      have hl := hl prev rfl
      rw [previousHash?]
      cases hg : (entryBlock e).get? "previous_hash" with
      | none => rw [hg] at hl; exact absurd (Json.str.inj hl).symm hne
      | some v => rw [hg] at hl; exact congrArg some hl
    have hlink : storedLink e = .str prev := by
      rw [storedLink, ← previousHash?, hp]
      rfl
    have hhash : contentHash e ≠ "" := by
      intro h0
      have hlen := sha256Hex_length (dumps (entryContent e))
      rw [← contentHash, h0] at hlen
      cases hlen
    obtain ⟨hchain, hlinks⟩ := ih hrest hhash
    refine ⟨⟨hr, hs, hlink, hchain⟩, ?_⟩
    rw [List.map_cons, hp, hlinks, List.length_cons, List.take_succ_cons, List.map_cons, List.map_cons, hs]

/-- A package with nothing in it but its type. -/
def emptyPackage : Json := .obj [("type", .str packageType)]

theorem emptyPackage_accepted : OfflineAccepts ed emptyPackage := ⟨"No transitions", none, rfl⟩

theorem emptyPackage_incomplete : ¬ Complete emptyPackage := fun h => absurd h.ledger (by decide)

end

end ProvableAi
