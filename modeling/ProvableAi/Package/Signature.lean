/-
# One proof and its signature

`verify/verify_signature.py`: a stand-alone program that checks the hash and the
signature of a single proof, under the key in the proof or one given with
`--public-key`.

`genuine_signatures`: where the key verifies what its signer signed and nothing else,
it accepts the recorded proofs, and what it accepts has the content of one.
`record_decision` signs before it builds the proof, which has no empty
`instance_id`, so the key may also have signed what is on no instance.
-/

import ProvableAi.Package.Binding

namespace ProvableAi

/-- `len(v)`. -/
def Json.pyLen : Json → Except PyErr ℕ
  | str s => .ok s.length
  | arr xs => .ok xs.length
  | obj kvs => .ok kvs.length
  | _ => .error .typeError

/-- The dict that `verify_proof_signature` returns. -/
structure SignatureCheck where
  valid : Bool
  hashValid : Bool
  sigValid : Bool
  proofId : Json
  instanceId : Json
  keyId : Json
  failure : Option String

/-- `override_pubkey or sig_block.get("public_key", "")`. -/
def checkedKey (override : Option String) (block : Json) : Except PyErr Json :=
  match override with
  | none => block.getD "public_key" (.str "")
  | some key => if key = "" then block.getD "public_key" (.str "") else .ok (.str key)

/-- `verify_proof_signature`. -/
def verifyProofSignature (ed : Ed25519) (proof : Json) (override : Option String) : Except PyErr SignatureCheck := do
  let proofId ← proof.getD "proof_id" .null
  let instanceId ← proof.getD "instance_id" .null
  let block ← proof.getD "signature" (.obj [])
  let keyId ← block.getD "key_id" .null
  let ledger ← proof.getD "ledger" (.obj [])
  let stored ← ledger.getD "current_hash" (.str "")
  let computed ← recomputeHash proof
  if stored ≠ .str computed then do
    let text ← stored.pySlice 16
    pure ⟨false, false, false, proofId, instanceId, keyId,
      some ("Hash mismatch: stored=" ++ text ++ "... computed=" ++ slice 16 computed ++ "...")⟩
  else do
    let value ← block.getD "value" (.str "")
    let publicKey ← checkedKey override block
    if publicKey.truthy = false then
      pure ⟨false, true, false, proofId, instanceId, keyId,
        some ("public_key not in proof.signature block and not provided via --public-key. " ++
          "Pass it explicitly: --public-key <64-hex-chars>")⟩
    else do
      -- what has no `len` raises here, in the test or in the message
      let length ← value.pyLen
      if length ≠ 128 then
        pure ⟨false, true, false, proofId, instanceId, keyId,
          some ("Invalid signature length: " ++ toString length ++ " (expected 128 hex chars)")⟩
      else if verifyHexEd25519 ed publicKey computed value then
        pure ⟨true, true, true, proofId, instanceId, keyId, none⟩
      else
        pure ⟨false, true, false, proofId, instanceId, keyId, some "Ed25519 signature verification failed"⟩

/-- The program exits with 0. -/
def SignatureAccepted (ed : Ed25519) (proof : Json) (override : Option String) : Prop :=
  ∃ res, verifyProofSignature ed proof override = .ok res ∧ res.valid = true

/-! ### What is accepted -/

/-- The signature block of a proof, by default empty. -/
def signatureBlock (e : Json) : Json := (e.get? "signature").getD (.obj [])

/-- The key that a proof is checked under. -/
def keyFor (override : Option String) (e : Json) : Json :=
  match override with
  | none => textField (signatureBlock e) "public_key"
  | some key => if key = "" then textField (signatureBlock e) "public_key" else .str key

/-- A proof that carries its hash and a signature over it. -/
structure SignedProof (ed : Ed25519) (override : Option String) (e : Json) : Prop where
  readable : Readable e
  block : (signatureBlock e).isObj = true
  hash : storedHash e = .str (contentHash e)
  key : (keyFor override e).truthy = true
  length : (textField (signatureBlock e) "value").pyLen = .ok 128
  verifies : verifyHexEd25519 ed (keyFor override e) (contentHash e) (textField (signatureBlock e) "value") = true

theorem checkedKey_eq_ok {override : Option String} {e w : Json} (h : (signatureBlock e).isObj = true) :
    checkedKey override (signatureBlock e) = .ok w ↔ keyFor override e = w := by
  have hown : (signatureBlock e).getD "public_key" (.str "") = .ok w ↔
      textField (signatureBlock e) "public_key" = w := by
    rw [getD_textField]
    exact and_iff_right h
  cases override with
  | none => exact hown
  | some key =>
    rw [checkedKey, keyFor]
    split_ifs
    · exact hown
    · exact ⟨Except.ok.inj, congrArg _⟩

/-- **What the program accepts.** -/
theorem signatureAccepted_iff {ed : Ed25519} {override : Option String} {e : Json} :
    SignatureAccepted ed e override ↔ SignedProof ed override e := by
  constructor
  · rintro ⟨res, h, hvalid⟩
    simp only [verifyProofSignature, bind_eq_ok_iff, Json.getD_eq_ok, recomputeHash_eq_ok] at h
    obtain ⟨_, -, _, -, block, ⟨-, hb⟩, _, ⟨hblock, -⟩, ledger, ⟨he, hl⟩, stored, ⟨-, hs⟩, _, ⟨hread, rfl⟩, h⟩ := h
    obtain rfl : signatureBlock e = block := hb
    obtain rfl : entryBlock e = ledger := hl
    obtain rfl : storedHash e = stored := hs
    by_cases hhash : storedHash e = .str (contentHash e)
    · rw [if_neg (not_not.2 hhash)] at h
      simp only [bind_eq_ok_iff, Json.getD_eq_ok] at h
      obtain ⟨value, ⟨-, hv⟩, key, hkey, h⟩ := h
      obtain rfl : textField (signatureBlock e) "value" = value := hv
      obtain rfl := (checkedKey_eq_ok hblock).1 hkey
      by_cases hkey : (keyFor override e).truthy = true
      · rw [if_neg (by rw [hkey]; decide)] at h
        obtain ⟨n, hlen, h⟩ := bind_eq_ok_iff.1 h
        split_ifs at h with hn hver
        · rw [← Except.ok.inj h] at hvalid
          cases hvalid
        · rw [not_not] at hn
          exact ⟨hread, hblock, hhash, hkey, hn ▸ hlen, hver⟩
        · rw [← Except.ok.inj h] at hvalid
          cases hvalid
      · rw [if_pos (Bool.eq_false_of_not_eq_true hkey)] at h
        rw [← Except.ok.inj h] at hvalid
        cases hvalid
    · rw [if_pos hhash] at h
      obtain ⟨t, -, h⟩ := bind_eq_ok_iff.1 h
      rw [← Except.ok.inj h] at hvalid
      cases hvalid
  · rintro ⟨hread, hblock, hhash, hkey, hlen, hver⟩
    have hkeyFor : checkedKey override (signatureBlock e) = .ok (keyFor override e) := (checkedKey_eq_ok hblock).2 rfl
    have hbad : (keyFor override e).truthy ≠ false := by rw [hkey]; decide
    have hcheck : verifyProofSignature ed e override = .ok ⟨true, true, true, (e.get? "proof_id").getD .null,
        (e.get? "instance_id").getD .null, ((signatureBlock e).get? "key_id").getD .null, none⟩ := by
      simp only [verifyProofSignature, bind_eq_ok_iff, Json.getD_eq_ok, recomputeHash_eq_ok]
      refine ⟨_, ⟨hread.1, rfl⟩, _, ⟨hread.1, rfl⟩, signatureBlock e, ⟨hread.1, rfl⟩, _, ⟨hblock, rfl⟩, entryBlock e,
        ⟨hread.1, rfl⟩, storedHash e, ⟨hread.2, rfl⟩, _, ⟨hread, rfl⟩, ?_⟩
      rw [if_neg (not_not.2 hhash)]
      refine bind_eq_ok_iff.2 ⟨textField (signatureBlock e) "value", Json.getD_eq_ok.2 ⟨hblock, rfl⟩,
        bind_eq_ok_iff.2 ⟨keyFor override e, hkeyFor, ?_⟩⟩
      rw [if_neg hbad]
      refine bind_eq_ok_iff.2 ⟨128, hlen, ?_⟩
      rw [if_neg (not_not.2 rfl), if_pos hver]
      rfl
    exact ⟨_, hcheck, rfl⟩

/-! ### Recorded proofs -/

section

variable {signer : Signer}

/-- **A recorded proof is accepted**, under its own key or the same one given. -/
theorem SignedProof.of_built {ed : Ed25519} {a : DecisionArgs} {p : ProofV1} (hb : Built signer a p)
    (hs : ed signer.publicKey (sha256 (utf8 (dumps p.payload))) (signer.sign (sha256 (utf8 (dumps p.payload)))) = true)
    {override : Option String} (hkey : ∀ key ∈ override, key = toHex signer.publicKey) :
    SignedProof ed override p.document := by
  have he := document_isEntry hb.wf
  have hblock : signatureBlock p.document = p.signature.dump.canon := by
    rw [signatureBlock, ProofV1.document, Json.get?_canon hb.wf]
    rfl
  have hpub : textField (signatureBlock p.document) "public_key" = .str (toHex signer.publicKey) := by
    rw [hblock, textField, Json.get?_canon p.signature.dump_wf, ← hb.publicKey]
    rfl
  have hvalue : textField (signatureBlock p.document) "value" =
      .str (toHex (signer.sign (sha256 (utf8 (dumps p.payload))))) := by
    rw [hblock, textField, Json.get?_canon p.signature.dump_wf, ← hb.value]
    rfl
  have hused : keyFor override p.document = .str (toHex signer.publicKey) := by
    cases override with
    | none => exact hpub
    | some key =>
      rw [keyFor]
      split_ifs
      · exact hpub
      · rw [hkey key rfl]
  refine ⟨he.readable, ?_, ?_, ?_, ?_, ?_⟩
  · rw [hblock]
    rfl
  · rw [he.storedHash_eq, hb.hash_eq, he.contentHash_eq]
  · rw [hused]
    exact truthy_of_length (by simp [signer.publicKey_length])
  · rw [hvalue, Json.pyLen]
    simp [signer.sign_length]
  · rw [hused, hvalue, he.contentHash_eq, verifyHexEd25519_toHex]
    exact hs

/-- The draft of a proof that is built has its payload. -/
theorem Inv.draft_of_buildProof {db : Db} {acc : List (DecisionArgs × ProofV1)} (h : Inv signer db acc) {env : CallEnv}
    {a : DecisionArgs} {p : ProofV1} (hp : buildProof db signer env a = .ok p) :
    ∃ d, draft db a = .ok d ∧ p.payload = d.payload ∧ p.ledger.currentHash.text = sha256Hex (dumps d.payload) := by
  obtain ⟨d, hd, hsign⟩ := bind_eq_ok_iff.1 hp
  have hdraft := draft_ok h.chained h.hexRows hd
  obtain ⟨-, hsigned⟩ := Draft.sign_signed (hdraft.previousHash ▸ tipOf_hex h.hexRows _) hsign
  exact ⟨d, hd, hsigned.payload, hsigned.currentHash⟩

/-- A recorded proof is that of a decision of the run, whose hash was signed. -/
theorem recorded_signed {ops : List Op} {ap : DecisionArgs × ProofV1} (h : ap ∈ recorded (Engine.fresh.run signer ops).2) :
    ∃ before env after d, ops = before ++ .recordDecision env ap.1 :: after ∧ env.signFault = none ∧
      draft (Engine.fresh.run signer before).1.db ap.1 = .ok d ∧ d.payload.floatFree = true ∧
      ap.2.payload = d.payload := by
  obtain ⟨⟨op, outcome, sent⟩, hev, hap⟩ := List.mem_filterMap.1 h
  split at hap
  · rename_i env a p sent heq
    obtain ⟨rfl, rfl, -⟩ := Event.mk.inj heq
    obtain rfl := Option.some.inj hap
    obtain ⟨b, c, rfl, hout, -⟩ := Engine.mem_run hev
    have hinv := inv_run signer b
    obtain ⟨e, he⟩ | ⟨q, hq, -, hr⟩ := recordDecision_cases (Engine.fresh.run signer b).1.db signer env a
    · rw [Engine.step, he] at hout
      cases hout
    · rw [Engine.step, hr] at hout
      obtain rfl := Outcome.proof.inj hout
      obtain ⟨d, hd, hpayload, -⟩ := hinv.draft_of_buildProof hq
      have hfault := ((buildProof_isOk_iff hinv.chained hinv.hexRows).1 ⟨_, hq⟩).2
      have hff := (buildProof_ok hinv.chained hinv.hexRows hq).1.floatFree
      exact ⟨b, env, c, d, rfl, hfault, hd, hpayload ▸ hff, hpayload⟩
  · cases hap

/-- What was hashed for a recorded proof. -/
theorem recorded_text {runs : Set (List Op)} {before after : List Op} (hruns : before ++ after ∈ runs)
    {ap : DecisionArgs × ProofV1} (h : ap ∈ recorded (Engine.fresh.run signer before).2) :
    dumps ap.2.payload ∈ historyTexts signer runs := by
  obtain ⟨b, env, c, d, rfl, -, hd, -, hpayload⟩ := recorded_signed h
  exact ⟨b, .recordDecision env ap.1, c ++ after, by simpa using hruns, d, hd, congrArg dumps hpayload⟩

theorem Drafted.payload_wf {db : Db} {a : DecisionArgs} {d : Draft} (h : Drafted db a d) : d.payload.wf = true := by
  rw [Draft.payload, hashPayload_wf]
  exact ⟨d.decision.dump_wf, h.wf, d.governance.dump_wf, d.determinism.dump_wf⟩

/-- A decision that was signed for an instance is recorded there, or another one with its hash is. -/
theorem Inv.recorded_of_draft {s : Engine} {acc : List (DecisionArgs × ProofV1)} (h : Inv signer s.db acc) {env : CallEnv}
    {a : DecisionArgs} {d : Draft} (hd : draft s.db a = .ok d) (hfault : env.signFault = none) (hi : a.instanceId ≠ "") :
    ∃ ap ∈ acc ++ recorded (s.run signer [.recordDecision env a]).2,
      ap.2.ledger.currentHash.text = sha256Hex (dumps d.payload) := by
  have hr := draft_recordable hi hd
  obtain ⟨p, hp⟩ := (buildProof_isOk_iff h.chained h.hexRows).2 ⟨hr, hfault⟩
  obtain ⟨d', hd', -, hhash⟩ := h.draft_of_buildProof hp
  obtain rfl := Except.ok.inj (hd.symm.trans hd')
  by_cases hnew : ∀ ap ∈ onInstance a.instanceId acc, ap.2.ledger.currentHash ≠ p.ledger.currentHash
  · obtain ⟨q, hq, hrec⟩ := h.record_returns env hr hfault fun q hq => by
      obtain rfl := Except.ok.inj (hp.symm.trans hq)
      exact hnew
    obtain rfl := Except.ok.inj (hp.symm.trans hq)
    refine ⟨(a, p), List.mem_append_right _ ?_, hhash⟩
    rw [Engine.run, Engine.step, hrec]
    exact List.mem_singleton_self _
  · simp only [not_forall, not_not] at hnew
    obtain ⟨ap, hap, heq⟩ := hnew
    exact ⟨ap, List.mem_append_left _ (List.mem_filter.1 hap).1, by rw [heq, hhash]⟩

/-! ### The key and the record -/

/-- The call's signer does not raise. -/
def Op.signs : Op → Bool
  | .recordDecision env _ => env.signFault.isNone
  | .exportProof env _ => env.signFault.isNone
  | _ => false

/-- The messages that runs over fresh databases had signed. -/
def answeredMessages (signer : Signer) (runs : Set (List Op)) : Set Bytes :=
  {m | ∃ before op after, before ++ op :: after ∈ runs ∧ op.signs = true ∧
    m ∈ (Engine.fresh.run signer before).1.sent op}

/-- The run signs the content of `e` in a `record_decision` with an empty `instance_id`,
which raises after it. -/
def SignedForNone (signer : Signer) (ops : List Op) (e : Json) : Prop :=
  ∃ before env a after d, ops = before ++ .recordDecision env a :: after ∧ a.instanceId = "" ∧
    env.signFault = none ∧ draft (Engine.fresh.run signer before).1.db a = .ok d ∧
    (entryContent e).canon = d.payload.canon

/-- The hash of a recorded proof was signed. -/
theorem recorded_answered {runs : Set (List Op)} {ops : List Op} (hops : ops ∈ runs) {ap : DecisionArgs × ProofV1}
    (h : ap ∈ recorded (Engine.fresh.run signer ops).2) :
    sha256 (utf8 (dumps ap.2.payload)) ∈ answeredMessages signer runs := by
  obtain ⟨b, env, c, d, rfl, hfault, hd, hff, hpayload⟩ := recorded_signed h
  refine ⟨b, .recordDecision env ap.1, c, hops, by rw [Op.signs, hfault]; rfl, ?_⟩
  have hhash : draft (Engine.fresh.run signer b).1.db ap.1 >>= Draft.hash = .ok (sha256Hex (dumps d.payload)) :=
    bind_eq_ok_iff.2 ⟨d, hd, Draft.hash_eq_ok.2 ⟨hff, rfl⟩⟩
  rw [Engine.sent, hhash, hpayload]
  simp only [fromHex_sha256Hex, Option.getD_some, List.mem_singleton]

/-- No joined hashes are the encoding of an object. -/
theorem dumps_ne_join (es : List Json) (kvs : List (String × Json)) :
    dumps (.obj kvs) ≠ String.join (es.map contentHash) := by
  intro h
  cases es with
  | nil =>
    have hhead := dumps_obj_head kvs
    rw [h] at hhead
    cases hhead
  | cons e es => exact join_hashes_ne_dumps (by simp) kvs h.symm

/-- What is accepted is verified: the digest of its content, under the key. -/
theorem SignedProof.verified {ed : Ed25519} {o : Option String} {e : Json} (h : SignedProof ed o e) {pub : String}
    {key : Bytes} (hpub : keyFor o e = .str pub) (hkey : fromHex pub = some key) :
    ∃ sig, ed key (sha256 (utf8 (dumps (entryContent e)))) sig = true := by
  have hv := h.verifies
  rw [hpub, contentHash] at hv
  unfold verifyHexEd25519 at hv
  split at hv
  · rename_i pub' message sig hp hmsg hsig
    obtain rfl := Json.str.inj hp
    rw [fromHex_sha256Hex] at hmsg
    obtain rfl := Option.some.inj hmsg
    unfold verifyEd25519 at hv
    split at hv
    · rename_i pk s hpk hs
      obtain rfl := Option.some.inj (hkey.symm.trans hpk)
      exact ⟨s, hv⟩
    · cases hv
  · cases hv

/-- A recorded proof with the digest of the content has the content. -/
theorem sameContent_of_recorded {runs : Set (List Op)} {before after : List Op} (hruns : before ++ after ∈ runs)
    {ap : DecisionArgs × ProofV1} (hap : ap ∈ recorded (Engine.fresh.run signer before).2) {e : Json} (he : e.wf = true)
    (hsha : CollisionFree (insert (dumps (entryContent e)) (historyTexts signer runs)))
    (hhash : ap.2.ledger.currentHash.text = sha256Hex (dumps (entryContent e))) :
    SameContent e ap.2.document := by
  have hb := (inv_run signer before).built ap hap
  have hd := document_isEntry hb.wf
  have htext : dumps (entryContent e) = dumps ap.2.payload :=
    hsha (Set.mem_insert _ _) (.inr (recorded_text hruns hap)) (by rw [← hhash, hb.hash_eq])
  exact sameContent_of_dumps he hd.wf (htext.trans (dumps_eq_of_canon hd.content_canon).symm)

/-- **The signatures of one key.**  The key verifies what its signer returned in some
runs of the program, and no other message.  Every proof that these runs recorded is
accepted under it; and what is accepted has, field by field of what is hashed, the
content of a recorded proof, or of a decision that was signed for no instance. -/
theorem genuine_signatures {ed : Ed25519} {runs : Set (List Op)}
    (hsigned : ∀ msg ∈ answeredMessages signer runs, ed signer.publicKey msg (signer.sign msg) = true)
    (hunforged : ∀ msg sig, ed signer.publicKey msg sig = true → msg ∈ answeredMessages signer runs) :
    (∀ ops ∈ runs, ∀ ap ∈ recorded (Engine.fresh.run signer ops).2,
      SignatureAccepted ed ap.2.document none ∧ SignatureAccepted ed ap.2.document (some (toHex signer.publicKey))) ∧
    ∀ e o pub, e.wf = true → CollisionFree (insert (dumps (entryContent e)) (historyTexts signer runs)) →
      keyFor o e = .str pub → fromHex pub = some signer.publicKey → SignatureAccepted ed e o →
      ∃ ops ∈ runs, (∃ ap ∈ recorded (Engine.fresh.run signer ops).2, SameContent e ap.2.document) ∨
        SignedForNone signer ops e := by
  constructor
  · intro ops hops ap hap
    have hb := (inv_run signer ops).built ap hap
    have hver := hsigned _ (recorded_answered hops hap)
    exact ⟨signatureAccepted_iff.2 (.of_built hb hver (by simp)), signatureAccepted_iff.2 (.of_built hb hver (by simp))⟩
  · intro e o pub he hsha hpub hkey haccepted
    obtain ⟨sig, hver⟩ := (signatureAccepted_iff.1 haccepted).verified hpub hkey
    obtain ⟨before, op, after, hops, hsigns, hsent⟩ := hunforged _ _ hver
    have hinv := inv_run signer before
    rcases hinv.sent_cases hsent with ⟨env, a, d, rfl, hd, hmsg⟩ | ⟨env, i, ds, rfl, hds, -, hmsg⟩
    · have hfault : env.signFault = none := Option.isNone_iff_eq_none.1 hsigns
      have htext : dumps (entryContent e) = dumps d.payload :=
        hsha (Set.mem_insert _ _) (.inr ⟨before, _, after, hops, d, hd, rfl⟩) (congrArg toHex hmsg)
      refine ⟨_, hops, ?_⟩
      by_cases hi : a.instanceId = ""
      · -- the hash is signed, and no proof comes of it
        have hwf := (draft_ok hinv.chained hinv.hexRows hd).payload_wf
        exact .inr ⟨before, env, a, after, d, rfl, hi, hfault, hd, (dumps_inj (entryContent_wf he) hwf).1 htext⟩
      · left
        obtain ⟨ap, hap, hhash⟩ := hinv.recorded_of_draft hd hfault hi
        have hrun : recorded (Engine.fresh.run signer (before ++ [.recordDecision env a])).2 =
            recorded (Engine.fresh.run signer before).2 ++
              recorded ((Engine.fresh.run signer before).1.run signer [.recordDecision env a]).2 := by
          rw [Engine.run_append, recorded_append]
        rw [← hrun] at hap
        have hsplit : before ++ .recordDecision env a :: after = (before ++ [.recordDecision env a]) ++ after := by simp
        rw [hsplit] at hops ⊢
        refine ⟨ap, ?_, sameContent_of_recorded hops hap he hsha (by rw [hhash, htext])⟩
        rw [Engine.run_append, recorded_append]
        exact List.mem_append_left _ hap
    · -- a root is no decision's hash
      have htext : dumps (entryContent e) = String.join (ds.map contentHash) :=
        hsha (Set.mem_insert _ _) (.inr ⟨before, _, after, hops, ds, hds, Set.mem_insert _ _⟩) (congrArg toHex hmsg)
      exact absurd htext (dumps_ne_join ds _)

end

/-! The two messages of the loan's run, the decision and its export. -/

/-- The key, on these. -/
def loanExportEd25519 : Ed25519 :=
  .ofTable rfcPublicKey ([loanHash, dumps loanPayload].map fun t => (sha256 (utf8 t), loanSign (sha256 (utf8 t))))

theorem mem_recorded_loanExport {ap : DecisionArgs × ProofV1}
    (h : recorded (Engine.fresh.run loanSigner (loanRun none)).2 = [ap]) :
    ap ∈ recorded (Engine.fresh.run loanSigner loanExport).2 := by
  rw [loanExport, Engine.run_append, recorded_append, h]
  exact List.mem_append_left _ (List.mem_singleton_self _)

theorem loanExport_answered {m : Bytes} : m ∈ answeredMessages loanSigner {loanExport} ↔
    ∃ t ∈ [loanHash, dumps loanPayload], m = sha256 (utf8 t) := by
  obtain ⟨p, hb, -, hrec⟩ := loanRun_records none
  have hloan := isLoan_of_buildProof hb
  constructor
  · rintro ⟨before, op, after, hruns, -, hm⟩
    have htexts : ∀ t ∈ (Engine.fresh.run loanSigner before).1.signedTexts op, t ∈ [loanHash, dumps loanPayload] := by
      intro t ht
      simpa using historyTexts_loanExport ⟨before, op, after, hruns, ht⟩
    rcases (inv_run loanSigner before).sent_cases hm with ⟨env, a, d, rfl, hd, hmsg⟩ | ⟨env, i, ds, rfl, hds, -, hmsg⟩
    · exact ⟨_, htexts _ ⟨d, hd, rfl⟩, hmsg⟩
    · exact ⟨_, htexts _ ⟨ds, hds, Set.mem_insert _ _⟩, hmsg⟩
  · simp only [List.mem_cons, List.not_mem_nil, or_false, exists_eq_or_imp, exists_eq_left]
    rintro (rfl | rfl)
    · have hinv := inv_run loanSigner (loanRun none)
      refine ⟨loanRun none, .exportProof loanEnv "loan_1", [], rfl, rfl, ?_⟩
      rw [hinv.sent_exportProof, hrec, List.mem_singleton]
      have hon : onInstance "loan_1" [(loanCall "pending" "approved" none, p)] =
          [(loanCall "pending" "approved" none, p)] := by simp [onInstance, loanCall]
      rw [hon, List.map_singleton, hloan.rootText]
    · have hanswered := recorded_answered (Set.mem_singleton loanExport) (mem_recorded_loanExport hrec)
      rwa [hloan.payload] at hanswered

/-- The loan's proof is accepted, and its content is the recorded one. -/
theorem genuine_signatures_loan :
    ∃ p, (loanCall "pending" "approved" none, p) ∈ recorded (Engine.fresh.run loanSigner loanExport).2 ∧
      SignatureAccepted loanExportEd25519 p.document none ∧
      ∃ ops ∈ ({loanExport} : Set (List Op)),
        (∃ ap ∈ recorded (Engine.fresh.run loanSigner ops).2, SameContent p.document ap.2.document) ∨
          SignedForNone loanSigner ops p.document := by
  obtain ⟨p, hb, -, hrec⟩ := loanRun_records none
  have hloan := isLoan_of_buildProof hb
  have hap := mem_recorded_loanExport hrec
  have hsigned : ∀ msg ∈ answeredMessages loanSigner {loanExport},
      loanExportEd25519 loanSigner.publicKey msg (loanSigner.sign msg) = true := by
    intro msg hmsg
    obtain ⟨t, ht, rfl⟩ := loanExport_answered.1 hmsg
    exact Ed25519.ofTable_of_mem (List.mem_map.2 ⟨t, ht, rfl⟩)
  have hunforged : ∀ msg sig, loanExportEd25519 loanSigner.publicKey msg sig = true →
      msg ∈ answeredMessages loanSigner {loanExport} := by
    intro msg sig h
    simp only [loanExportEd25519, Ed25519.ofTable, Bool.and_eq_true, List.contains_iff_mem] at h
    obtain ⟨t, ht, heq⟩ := List.mem_map.1 h.2
    exact loanExport_answered.2 ⟨t, ht, (congrArg Prod.fst heq).symm⟩
  obtain ⟨haccepted, hgenuine⟩ := genuine_signatures hsigned hunforged
  obtain ⟨hown, hgiven⟩ := haccepted loanExport rfl _ hap
  have htext : dumps (entryContent p.document) ∈ ({loanHash, dumps loanPayload} : Set String) := by
    rw [dumps_eq_of_canon (document_isEntry hloan.wf).content_canon, hloan.payload]
    exact .inr rfl
  refine ⟨p, hap, hown, hgenuine p.document _ (toHex loanSigner.publicKey) (p.document_wf hloan.wf) ?_ ?_
    (fromHex_toHex _) hgiven⟩
  · exact loan_collisionFree.mono (Set.insert_subset htext historyTexts_loanExport)
  · rw [keyFor, if_neg (by decide +kernel)]

end ProvableAi
