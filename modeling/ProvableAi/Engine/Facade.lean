/-
# The `Engine` facade

`Engine` in `engine.py`: protocols, instances that move along their transitions,
and exports.  `compile`, `create_instance` and `export_proof` are those of
`GovernanceEngine`; `transition` checks the protocol and the `frozen` flag and
then records a decision.

The constructor puts a table without constraints in the place of `ledger`, so
that an append is refused by the checks of `append_ledger_entry` alone.

`protocol_conformance` is the result, for runs of one facade on a fresh database: the rows
of an instance are a path of the protocol it was created under, the state in
memory is where the path ends, a refused transition changes nothing, and an
exported instance gains no rows.  Two steps have to be left out.  An export of
an instance without rows freezes nothing, because `create_instance` does not
insert the instance: its `INSERT OR IGNORE` leaves out `created_at`.  And a
spec that shares its hash with another one would take its place.
-/

import ProvableAi.Engine.Frozen
import ProvableAi.Lib.Lockstep

namespace ProvableAi

/-- `v[k]`. -/
def Json.index (v : Json) (k : String) : Except PyErr Json :=
  match v with
  | .obj kvs =>
    match kvs.lookup k with
    | some x => .ok x
    | none => .error (.keyError k)
  | _ => .error .typeError

/-- `get_instance`. -/
def Db.getInstance (db : Db) (instanceId tenantId : String) : Option InstanceRow :=
  db.instances.find? fun r => r.instanceId = instanceId ∧ r.tenantId = tenantId

/-- `append_ledger_entry` on the facade's `ledger`, whose inserts meet no constraint. -/
def Db.appendUnconstrained (db : Db) (now : String) (p : ProofDict) : Except PyErr ℤ × Db :=
  match p.checkSignature with
  | .error e => (.error e, db)
  | .ok _ =>
    match validateChainIntegrity db.ledger p.instanceId p.sequenceId p.previousHash p.tenant with
    | .error e => (.error e, db)
    | .ok _ => (.ok p.sequenceId, db.appended now p)

namespace Facade

open Lockstep

/-! ### `transition` -/

/-- The arguments of `transition`; `actor` is not read. -/
structure TransitionCall where
  instanceId : String
  toState : String
  inputHash : String
  outputHash : String
  modelVersion : String
  agentVersion : String
  policyVersion : String
  metadataJson : String

/-- `allowed`: the pairs of `spec["transitions"]`. -/
def allowedPairs (spec : List (String × Json)) : Except PyErr (List (Json × Json)) :=
  match spec.lookup "transitions" with
  | none => .error (.keyError "transitions")
  | some transitions => do
    let ts ← transitions.iter
    ts.mapM fun t => do
      let fromState ← t.index "from_state"
      let toState ← t.index "to_state"
      pure (fromState, toState)

/-- The checks of `transition`, with the state and the protocol of the instance.
Values that are no texts are compared as they are written; pydantic refuses such
a state in any case. -/
def checkTransition (s : Engine) (c : TransitionCall) : Except PyErr (Json × String) :=
  match s.instances.lookup c.instanceId with
  | none => .error (.valueError ("Instance '" ++ c.instanceId ++ "' not found."))
  | some (fromState, protocolHash) =>
    if c.inputHash = "" ∨ c.outputHash = "" then
      .error (.valueError "Transition incomplete: input_hash and output_hash required.")
    else if c.modelVersion ∉ s.db.modelVersions then
      .error (.valueError ("Model version not approved: " ++ c.modelVersion))
    else if c.agentVersion ∉ s.db.agentVersions then
      .error (.valueError ("Agent version not approved: " ++ c.agentVersion))
    else if c.policyVersion ∉ s.db.policyVersions then
      .error (.valueError ("Policy version not active: " ++ c.policyVersion))
    else
      match allowedPairs ((s.protocols.lookup protocolHash).getD []) with
      | .error e => .error e
      | .ok allowed =>
        if (fromState, .str c.toState) ∉ allowed then
          .error (.valueError ("Invalid transition: " ++ fromState.pyStr ++ " -> " ++ c.toState))
        else if (s.db.getInstance c.instanceId defaultTenant).any InstanceRow.frozen then
          .error (.valueError ("Instance '" ++ c.instanceId ++ "' is frozen."))
        else .ok (fromState, protocolHash)

/-- A `dict` of metadata: it holds no key twice. -/
abbrev Metadata := { md : List (String × Json) // (Json.obj md).wf = true }

/-- `{}`. -/
def noMetadata : Metadata := ⟨[], rfl⟩

/-- `metadata` as `record_decision` takes it up.  A text that `json.loads` takes and
`loads` does not (`NaN`, a lone surrogate) is refused by the canonical encoding. -/
def loadMetadata (metadataJson : String) : Except PyErr Metadata :=
  if metadataJson = "" ∨ metadataJson = "\x7b\x7d" then .ok noMetadata
  else
    match h : loads metadataJson with
    | none => .error .jsonDecodeError
    | some (.obj md) => .ok ⟨md, loads_wf h⟩
    | some v =>
      if v.truthy = false then .ok noMetadata  -- `metadata or {}`
      else
        match validatePayload "metadata" v.toPy with
        | .error e => .error e
        | .ok _ => .error .validationError

theorem noContributions_nodup :
    ∀ fs ∈ (none : Option (List (List (String × String)))), ∀ f ∈ fs, (f.map Prod.fst).Nodup := by
  intro fs hfs
  cases hfs

/-- The decision that `transition` records. -/
def TransitionCall.args (c : TransitionCall) (fromState : String) (metadata : Metadata) : DecisionArgs where
  instanceId := c.instanceId
  fromState := fromState
  toState := c.toState
  modelVersion := c.modelVersion
  agentVersion := c.agentVersion
  policyVersion := c.policyVersion
  reasonCode := "TRANSITION"
  policyRule := c.policyVersion ++ ".auto"
  rawInputs := some (.obj [("input_hash", .str c.inputHash), ("output_hash", .str c.outputHash)])
  featureContributions := none
  thresholdUsed := none
  metadata := some (Json.toPyMembers metadata.1)
  determinismMode := .strictDeterministic
  randomSeed := none
  externalCalls := none
  features_nodup := noContributions_nodup
  metadata_wf := toPy_wf metadata.2

/-- `record_decision` of the facade's `GovernanceEngine`. -/
def recordDecision (db : Db) (signer : Signer) (env : CallEnv) (a : DecisionArgs) : Except PyErr ProofV1 × Db :=
  match buildProof db signer env a with
  | .error e => (.error e, db)
  | .ok p =>
    match db.appendUnconstrained env.now.text p.toDict with
    | (.error e, db) => (.error e, db)
    | (.ok _, db) => (.ok p, db)

/-- The call of `record_decision`.  A state that is no text is refused by `Decision`,
after the metadata. -/
def recordTransition (db : Db) (signer : Signer) (env : CallEnv) (c : TransitionCall) (fromState : Json)
    (metadata : Metadata) : Except PyErr ProofV1 × Db :=
  match fromState with
  | .str fromState => recordDecision db signer env (c.args fromState metadata)
  | _ =>
    match validateMetadata (Json.toPyMembers metadata.1) with
    | .error e => (.error e, db)
    | .ok _ => (.error .validationError, db)

/-- What a call returned or raised. -/
inductive Outcome where
  | done
  | compiled (protocolHash : String)
  | created (instanceId : String) (state : Json)
  | transitioned (newState : String) (version : ℤ) (proofId : String)
  | package (j : Json)
  | raised (e : PyErr)

/-- `transition`. -/
def transition (signer : Signer) (s : Engine) (env : CallEnv) (c : TransitionCall) : Outcome × Engine :=
  match checkTransition s c with
  | .error e => (.raised e, s)
  | .ok (fromState, protocolHash) =>
    match loadMetadata c.metadataJson with
    | .error e => (.raised e, s)
    | .ok metadata =>
      match recordTransition s.db signer env c fromState metadata with
      | (.error e, db) => (.raised e, { s with db := db })
      | (.ok p, db) =>
        (.transitioned c.toState (maxSequenceId s.db.ledger defaultTenant c.instanceId + 1) p.proofId,
          { s with db := db, instances := (c.instanceId, .str c.toState, protocolHash) :: s.instances })

/-! ### Runs -/

/-- A call; a spec is a `dict`, which holds no key twice. -/
inductive Op where
  | addApprovedModel (now modelVersion modelName : String)
  | addApprovedAgent (now agentVersion agentName : String)
  | addApprovedPolicy (now policyVersion policyName : String)
  | deactivatePolicy (policyVersion : String)
  | compile (now : String) (spec : List (String × Json)) (wf : (Json.obj spec).wf = true)
  | createInstance (instanceId : String)
  | transition (env : CallEnv) (c : TransitionCall)
  | exportProof (env : CallEnv) (instanceId : String)

/-- One call. -/
def step (signer : Signer) (s : Engine) : Op → Outcome × Engine
  | .addApprovedModel now v n => (.done, { s with db := s.db.addApprovedModel now v n })
  | .addApprovedAgent now v n => (.done, { s with db := s.db.addApprovedAgent now v n })
  | .addApprovedPolicy now v n => (.done, { s with db := s.db.addApprovedPolicy now v n })
  | .deactivatePolicy v => (.done, { s with db := s.db.deactivatePolicy v })
  | .compile now spec _ => (.compiled (sha256Hex (dumps (.obj spec))), (s.compile now spec).2)
  | .createInstance i =>
    match s.createInstance i with
    | (.created i state, s) => (.created i state, s)
    | (.raised e, s) => (.raised e, s)
    | (_, s) => (.done, s)
  | .transition env c => Facade.transition signer s env c
  | .exportProof env i =>
    match ProvableAi.exportProof s.db signer env i with
    | (.ok j, db) => (.package j, { s with db := db })
    | (.error e, db) => (.raised e, { s with db := db })

/-- The facade after the calls, on a fresh database. -/
def after (signer : Signer) (ops : List Op) : Engine := final (step signer) .fresh ops

/-- The rows of an instance. -/
def rows (s : Engine) (i : String) : List LedgerRow := rowsOf s.db.ledger defaultTenant i

/-! ### Paths of a protocol -/

/-- The rows are a path of the protocol, and `state` is where it ends. -/
structure Conforms (spec : List (String × Json)) (rows : List LedgerRow) (state : Json) : Prop where
  first : ∀ r, rows.head? = some r → spec.lookup "initial_state" = some (.str r.fromState)
  next : ∀ (k : ℕ) r q, rows[k]? = some r → rows[k + 1]? = some q → q.fromState = r.toState
  allowed : ∀ r ∈ rows, ∃ pairs, allowedPairs spec = .ok pairs ∧ (Json.str r.fromState, Json.str r.toState) ∈ pairs
  state : (rows.getLast?.map fun r => Json.str r.toState).or (spec.lookup "initial_state") = some state

theorem Conforms.nil {spec : List (String × Json)} {state : Json} (h : spec.lookup "initial_state" = some state) :
    Conforms spec [] state := ⟨by simp, by simp, by simp, by simpa using h⟩

/-- One step along the protocol. -/
theorem Conforms.concat {spec : List (String × Json)} {rows : List LedgerRow} {r : LedgerRow} {pairs : List (Json × Json)}
    (h : Conforms spec rows (.str r.fromState)) (hp : allowedPairs spec = .ok pairs)
    (hr : (Json.str r.fromState, Json.str r.toState) ∈ pairs) : Conforms spec (rows ++ [r]) (.str r.toState) where
  first q hq := by
    cases rows with
    | nil =>
      obtain rfl : r = q := by simpa using hq
      simpa using h.state
    | cons r' rows => exact h.first q (by simpa using hq)
  next k q q' hq hq' := by
    rcases Nat.lt_trichotomy (k + 1) rows.length with hk | hk | hk
    · rw [List.getElem?_append_left (by omega)] at hq
      rw [List.getElem?_append_left hk] at hq'
      exact h.next k q q' hq hq'
    · -- the new row follows the last one, whose state is the one in memory
      rw [List.getElem?_append_left (by omega)] at hq
      rw [List.getElem?_append_right (by omega), hk, Nat.sub_self] at hq'
      obtain rfl : r = q' := by simpa using hq'
      have hlast : rows.getLast? = some q := by
        rw [List.getLast?_eq_getElem?, ← hk, Nat.add_sub_cancel]
        exact hq
      have hstate := h.state
      rw [hlast] at hstate
      simpa using hstate.symm
    · rw [List.getElem?_eq_none (by simp; omega)] at hq'
      cases hq'
  allowed q hq := by
    rcases List.mem_append.1 hq with hq | hq
    · exact h.allowed q hq
    · obtain rfl := List.mem_singleton.1 hq
      exact ⟨pairs, hp, hr⟩
  state := by simp

/-- `v[k]` is what the key maps to. -/
theorem index_eq_ok {v x : Json} {k : String} : v.index k = .ok x ↔ v.get? k = some x := by
  cases v with
  | obj kvs =>
    rw [Json.index, Json.get?_obj]
    cases kvs.lookup k <;> simp
  | _ => simp [Json.index, Json.get?]

theorem index_of_canon {v w x : Json} {k : String} (hv : v.wf = true) (hw : w.wf = true) (hc : v.canon = w.canon)
    (h : v.index k = .ok x) : ∃ y, w.index k = .ok y ∧ y.canon = x.canon := by
  rw [index_eq_ok] at h
  have hget := Json.get?_canon hv k
  rw [hc, Json.get?_canon hw k, h, Option.map_some, Option.map_eq_some_iff] at hget
  obtain ⟨y, hy, hyc⟩ := hget
  exact ⟨y, index_eq_ok.2 hy, hyc⟩

/-- What `allowed` holds: the pairs of a list of objects. -/
theorem mem_allowedPairs {spec : List (String × Json)} {pairs : List (Json × Json)} (h : allowedPairs spec = .ok pairs)
    {x : Json × Json} (hx : x ∈ pairs) :
    ∃ ts, spec.lookup "transitions" = some (.arr ts) ∧
      List.Forall₂ (fun t p => t.index "from_state" = .ok p.1 ∧ t.index "to_state" = .ok p.2) ts pairs := by
  rw [allowedPairs] at h
  cases hv : spec.lookup "transitions" with
  | none => rw [hv] at h; cases h
  | some v =>
    rw [hv] at h
    obtain ⟨ts, hiter, hmap⟩ := bind_eq_ok_iff.1 h
    have hall : List.Forall₂ (fun t p => t.index "from_state" = .ok p.1 ∧ t.index "to_state" = .ok p.2) ts pairs := by
      refine (mapM_eq_ok.1 hmap).imp fun t p ht => ?_
      simp only [bind_eq_ok_iff] at ht
      obtain ⟨f, hf, g, hg, hp⟩ := ht
      obtain rfl := Except.ok.inj hp
      exact ⟨hf, hg⟩
    -- the items of anything but a list are texts, which have no keys
    have htext : ∀ t ∈ ts, ∀ s, t ≠ .str s := by
      rintro t ht s rfl
      obtain ⟨k, hk, hts⟩ := List.getElem_of_mem ht
      have := (List.forall₂_iff_get.1 hall).2 k hk ((List.forall₂_iff_get.1 hall).1 ▸ hk)
      simp only [List.get_eq_getElem, hts, Json.index] at this
      cases this.1
    have hne : ts ≠ [] := by
      rintro rfl
      cases hall
      cases hx
    cases v with
    | arr xs =>
      obtain rfl : xs = ts := Except.ok.inj hiter
      exact ⟨xs, rfl, hall⟩
    | obj kvs =>
      obtain rfl : kvs.map (fun kv => Json.str kv.1) = ts := Except.ok.inj hiter
      obtain ⟨kv, hkv⟩ := List.exists_mem_of_ne_nil _ (by simpa using hne : kvs ≠ [])
      exact absurd rfl (htext _ (List.mem_map.2 ⟨kv, hkv, rfl⟩) kv.1)
    | str s =>
      obtain rfl : s.toList.map (fun c => Json.str (String.singleton c)) = ts := Except.ok.inj hiter
      obtain ⟨c, hc⟩ := List.exists_mem_of_ne_nil s.toList (by simpa using hne)
      exact absurd rfl (htext _ (List.mem_map.2 ⟨c, hc, rfl⟩) _)
    | _ => cases hiter

/-- Specs of one text allow the same transitions between texts. -/
theorem allowed_of_dumps {spec spec' : List (String × Json)} (hw : (Json.obj spec).wf = true)
    (hw' : (Json.obj spec').wf = true) (hd : dumps (.obj spec') = dumps (.obj spec)) {pairs' : List (Json × Json)}
    (h : allowedPairs spec' = .ok pairs') {f t : String} (hmem : (Json.str f, Json.str t) ∈ pairs') :
    ∃ pairs, allowedPairs spec = .ok pairs ∧ (Json.str f, Json.str t) ∈ pairs := by
  obtain ⟨ts', hlook', hall'⟩ := mem_allowedPairs h hmem
  have hcanon := (dumps_inj hw' hw).1 hd
  -- the transitions of the other spec are a list of the same length, object by object
  obtain ⟨v, hv, hvc⟩ : ∃ v, (Json.obj spec).index "transitions" = .ok v ∧ v.canon = (Json.arr ts').canon :=
    index_of_canon hw' hw hcanon (index_eq_ok.2 hlook')
  have hlook : spec.lookup "transitions" = some v := index_eq_ok.1 hv
  have hwv' : (Json.arr ts').wf = true := Json.wf_of_get? (j := .obj spec') hw' hlook'
  have hwv : v.wf = true := Json.wf_of_get? (j := .obj spec) hw hlook
  cases v with
  | arr ts =>
    simp only [Json.canon_arr, Json.arr.injEq] at hvc
    have hlen : ts.length = ts'.length := by simpa using congrArg List.length hvc
    have hstep : ∀ (k : ℕ) (hk : k < ts.length) (hk' : k < ts'.length) (p : Json × Json),
        ts'[k].index "from_state" = .ok p.1 ∧ ts'[k].index "to_state" = .ok p.2 →
        ∃ q : Json × Json, ts[k].index "from_state" = .ok q.1 ∧ ts[k].index "to_state" = .ok q.2 ∧
          q.1.canon = p.1.canon ∧ q.2.canon = p.2.canon := by
      intro k hk hk' p ⟨hf, hg⟩
      have hc : ts'[k].canon = ts[k].canon := by
        have := List.getElem_of_eq hvc (by simpa using hk : k < (ts.map Json.canon).length)
        simpa using this.symm
      have hwt : ts[k].wf = true := (Json.wf_arr ts).1 hwv _ (List.getElem_mem hk)
      have hwt' : ts'[k].wf = true := (Json.wf_arr ts').1 hwv' _ (List.getElem_mem hk')
      obtain ⟨x, hx, hxc⟩ := index_of_canon hwt' hwt hc hf
      obtain ⟨y, hy, hyc⟩ := index_of_canon hwt' hwt hc hg
      exact ⟨(x, y), hx, hy, hxc, hyc⟩
    obtain ⟨hlen', hget⟩ := List.forall₂_iff_get.1 hall'
    have hreads : ∀ t ∈ ts, ∃ q : Json × Json, t.index "from_state" = .ok q.1 ∧ t.index "to_state" = .ok q.2 := by
      intro t ht
      obtain ⟨k, hk, rfl⟩ := List.getElem_of_mem ht
      obtain ⟨q, hq₁, hq₂, -⟩ := hstep k hk (hlen ▸ hk) _ (hget k (hlen ▸ hk) (by omega))
      exact ⟨q, hq₁, hq₂⟩
    choose! g hg using hreads
    refine ⟨ts.map g, ?_, ?_⟩
    · rw [allowedPairs, hlook]
      refine mapM_ok_map g fun t ht => ?_
      rw [(hg t ht).1, ok_bind, (hg t ht).2, ok_bind]
      rfl
    · obtain ⟨k, hk, hpk⟩ := List.getElem_of_mem hmem
      have hkt : k < ts.length := by omega
      obtain ⟨q, hq₁, hq₂, hc₁, hc₂⟩ := hstep k hkt (by omega) _ (hget k (by omega) hk)
      simp only [List.get_eq_getElem, hpk] at hc₁ hc₂
      have hmemk := List.getElem_mem hkt
      have h₁ : (g ts[k]).1 = q.1 := Except.ok.inj ((hg _ hmemk).1.symm.trans hq₁)
      have h₂ : (g ts[k]).2 = q.2 := Except.ok.inj ((hg _ hmemk).2.symm.trans hq₂)
      refine List.mem_map.2 ⟨ts[k], hmemk, Prod.ext ?_ ?_⟩
      · rw [h₁]; exact Json.canon_eq_str.1 hc₁
      · rw [h₂]; exact Json.canon_eq_str.1 hc₂
  | obj kvs => simp [Json.canon_obj] at hvc
  | _ => simp at hvc

/-! ### What one call does -/

/-- A spec with the hash of one that is registered is the same text; an export that
the signer does not stop is of an instance with rows. -/
def Ok (s : Engine) : Op → Prop
  | .compile _ spec _ => ∀ spec', s.protocols.lookup (sha256Hex (dumps (.obj spec))) = some spec' →
      dumps (.obj spec') = dumps (.obj spec)
  | .exportProof env i => env.signFault = none → rows s i ≠ []
  | _ => True

theorem appendUnconstrained_cases (db : Db) (now : String) (p : ProofDict) :
    (∃ e, db.appendUnconstrained now p = (.error e, db)) ∨
      db.appendUnconstrained now p = (.ok p.sequenceId, db.appended now p) := by
  rw [Db.appendUnconstrained]
  split
  · exact .inl ⟨_, rfl⟩
  · split
    · exact .inl ⟨_, rfl⟩
    · exact .inr rfl

/-- What the checks of `transition` ask for. -/
theorem checkTransition_ok {s : Engine} {c : TransitionCall} {state : Json} {h : String}
    (hcheck : checkTransition s c = .ok (state, h)) :
    s.instances.lookup c.instanceId = some (state, h) ∧
      (s.db.getInstance c.instanceId defaultTenant).any InstanceRow.frozen = false ∧
      ∃ pairs, allowedPairs ((s.protocols.lookup h).getD []) = .ok pairs ∧ (state, Json.str c.toState) ∈ pairs := by
  rw [checkTransition] at hcheck
  cases hlook : s.instances.lookup c.instanceId with
  | none => rw [hlook] at hcheck; cases hcheck
  | some sh =>
    obtain ⟨state', h'⟩ := sh
    rw [hlook] at hcheck
    cases hpairs : allowedPairs ((s.protocols.lookup h').getD []) with
    | error e =>
      simp only [hpairs] at hcheck
      split_ifs at hcheck
    | ok pairs =>
      simp only [hpairs] at hcheck
      split_ifs at hcheck with _ _ _ _ hmem hfrozen
      obtain ⟨rfl, rfl⟩ := Prod.mk.inj (Except.ok.inj hcheck)
      exact ⟨rfl, by simpa using hfrozen, pairs, hpairs, hmem⟩

/-- **What `transition` does**: it raises and changes nothing, or it appends the row of
a step that the protocol allows from the state in memory. -/
theorem transition_cases (signer : Signer) {s : Engine} (hch : Chained s.db.ledger) (hx : HexRows s.db.ledger)
    (env : CallEnv) (c : TransitionCall) :
    (∃ e, transition signer s env c = (.raised e, s)) ∨
      ∃ f h pairs, ∃ p : ProofV1, ∃ v, s.instances.lookup c.instanceId = some (.str f, h) ∧
        allowedPairs ((s.protocols.lookup h).getD []) = .ok pairs ∧ (Json.str f, Json.str c.toState) ∈ pairs ∧
        (s.db.getInstance c.instanceId defaultTenant).any InstanceRow.frozen = false ∧
        p.row.instanceId = c.instanceId ∧ p.row.fromState = f ∧ p.row.toState = c.toState ∧
        Chained (s.db.ledger ++ [p.row]) ∧
        transition signer s env c = (.transitioned c.toState v p.proofId,
          { s with
            db := s.db.appended env.now.text p.toDict
            instances := (c.instanceId, .str c.toState, h) :: s.instances }) := by
  rw [transition]
  cases hcheck : checkTransition s c with
  | error e => exact .inl ⟨e, rfl⟩
  | ok fh =>
    obtain ⟨state, h⟩ := fh
    cases hmd : loadMetadata c.metadataJson with
    | error e => exact .inl ⟨e, rfl⟩
    | ok md =>
      simp only
      cases state with
      | str f =>
        rw [recordTransition, recordDecision]
        cases hb : buildProof s.db signer env (c.args f md) with
        | error e => exact .inl ⟨e, rfl⟩
        | ok p =>
          simp only
          rcases appendUnconstrained_cases s.db env.now.text p.toDict with ⟨e, he⟩ | hok
          · rw [he]
            exact .inl ⟨e, rfl⟩
          · rw [hok]
            obtain ⟨hbuilt, hprev, hseq⟩ := buildProof_ok hch hx hb
            rw [← hbuilt.instanceId] at hprev hseq
            obtain ⟨hlook, hfrozen, pairs, hpairs, hmem⟩ := checkTransition_ok hcheck
            exact .inr ⟨f, h, pairs, p, _, hlook, hpairs, hmem, hfrozen, hbuilt.instanceId,
              hbuilt.carries.fromState, hbuilt.carries.toState, hch.concat (r := p.row) hseq hprev, rfl⟩
      | _ =>
        simp only [recordTransition]
        cases validateMetadata (Json.toPyMembers md.1) with
        | error e => exact .inl ⟨e, rfl⟩
        | ok _ => exact .inl ⟨_, rfl⟩

/-- **What `create_instance` does**: it raises, or the instance is new and starts in the
initial state of the active protocol. -/
theorem createInstance_cases (signer : Signer) (s : Engine) (i : String) :
    (∃ e, step signer s (.createInstance i) = (.raised e, s)) ∨
      ∃ h state, s.active = some h ∧ s.instances.lookup i = none ∧
        ((s.protocols.lookup h).getD []).lookup "initial_state" = some state ∧
        step signer s (.createInstance i) =
          (.created i state, { s with instances := (i, state, h) :: s.instances }) := by
  rw [step, Engine.createInstance]
  cases ha : s.active with
  | none => exact .inl ⟨_, rfl⟩
  | some h =>
    simp only
    cases hl : s.instances.lookup i with
    | some x => exact .inl ⟨_, rfl⟩
    | none =>
      cases hst : ((s.protocols.lookup h).getD []).lookup "initial_state" with
      | none => exact .inl ⟨_, rfl⟩
      | some state => exact .inr ⟨h, state, rfl, rfl, hst, rfl⟩

/-! ### Frozen instances -/

/-- The `frozen` flag of the instance is set. -/
def Frozen (s : Engine) (i : String) : Prop :=
  (s.db.getInstance i defaultTenant).any InstanceRow.frozen = true

theorem getInstance_freeze (db : Db) (i j t u : String) :
    (db.freezeInstance i t).getInstance j u =
      (db.getInstance j u).map fun r =>
        if r.instanceId = i ∧ r.tenantId = t then { r with frozen := true } else r := by
  rw [Db.getInstance, Db.getInstance, Db.freezeInstance, List.find?_map]
  refine congrArg (Option.map _) (congrArg (List.find? · db.instances) (funext fun r => ?_))
  simp only [Function.comp]
  split_ifs <;> rfl

theorem getInstance_appended {db : Db} {i t : String} {r : InstanceRow} (h : db.getInstance i t = some r)
    (now : String) (p : ProofDict) : (db.appended now p).getInstance i t = some r := by
  have hend : ∀ more, (db.instances ++ more).find? (fun r => r.instanceId = i ∧ r.tenantId = t) = some r :=
    fun more => by rw [List.find?_append, show db.instances.find? _ = some r from h]; rfl
  simp only [Db.getInstance, Db.appended, ensureInstance, insertInstance]
  split
  · exact h
  · split
    · exact h
    · exact hend _

theorem frozen_iff {s : Engine} {i : String} :
    Frozen s i ↔ ∃ r, s.db.getInstance i defaultTenant = some r ∧ r.frozen = true := by
  rw [Frozen]
  cases s.db.getInstance i defaultTenant <;> simp

theorem rows_appended (db : Db) (now : String) (p : ProofV1) (i : String) :
    rowsOf (db.appended now p.toDict).ledger defaultTenant i =
      if p.row.instanceId = i then rowsOf db.ledger defaultTenant i ++ [p.row] else rowsOf db.ledger defaultTenant i := by
  have hledger : (db.appended now p.toDict).ledger = db.ledger ++ [p.row] := rfl
  have htenant : p.row.tenantId = defaultTenant := rfl
  rw [hledger, rowsOf_append]
  split_ifs with hi
  · rw [← hi, ← htenant, rowsOf_self]
  · rw [rowsOf_other fun h => hi h.2, List.append_nil]

theorem export_cases (signer : Signer) (s : Engine) (env : CallEnv) (i : String) :
    (∃ e, step signer s (.exportProof env i) = (.raised e, s)) ∨
      env.signFault = none ∧ ∃ j, step signer s (.exportProof env i) =
        (.package j, { s with db := s.db.freezeInstance i defaultTenant }) := by
  rw [step, ProvableAi.exportProof]
  cases hs : signedExport s.db signer env i with
  | error e => exact .inl ⟨e, rfl⟩
  | ok j =>
    refine .inr ⟨?_, j, rfl⟩
    simp only [signedExport, bind_eq_ok_iff] at hs
    obtain ⟨_, -, _, -, _, hsign, -⟩ := hs
    exact (signHash_eq_ok.1 hsign).1

/-- **A frozen instance stays frozen and gains no rows.** -/
theorem Frozen.step (signer : Signer) {s : Engine} (hch : Chained s.db.ledger) (hx : HexRows s.db.ledger) {i : String}
    (h : Frozen s i) (op : Op) :
    Frozen (step signer s op).2 i ∧ rows (Facade.step signer s op).2 i = rows s i := by
  cases op with
  | compile now spec wf =>
    simp only [Facade.step, Engine.compile, Frozen, rows, Db.registerProtocol]
    split
    · exact ⟨h, rfl⟩
    · exact ⟨h, rfl⟩
  | createInstance j =>
    rcases createInstance_cases signer s j with ⟨e, he⟩ | ⟨hash, state, -, -, -, he⟩
    · rw [he]; exact ⟨h, rfl⟩
    · rw [he]; exact ⟨h, rfl⟩
  | transition env c =>
    rcases transition_cases signer hch hx env c with ⟨e, he⟩ | ⟨f, hash, pairs, p, v, -, -, -, hfrozen, hi, -, -, -, he⟩
    · rw [Facade.step, he]; exact ⟨h, rfl⟩
    · -- the flag refuses a transition of the instance itself
      have hne : p.row.instanceId ≠ i := by
        rintro rfl
        rw [Frozen, hi, hfrozen] at h
        cases h
      rw [Facade.step, he]
      obtain ⟨r, hr, hf⟩ := frozen_iff.1 h
      refine ⟨frozen_iff.2 ⟨r, getInstance_appended hr _ _, hf⟩, ?_⟩
      simp only [rows]
      rw [rows_appended, if_neg hne]
  | exportProof env j =>
    rcases export_cases signer s env j with ⟨e, he⟩ | ⟨-, pkg, he⟩
    · rw [he]; exact ⟨h, rfl⟩
    · rw [he]
      obtain ⟨r, hr, hf⟩ := frozen_iff.1 h
      refine ⟨frozen_iff.2 ⟨_, by rw [getInstance_freeze, hr]; rfl, ?_⟩, rfl⟩
      simp only
      split_ifs
      · rfl
      · exact hf
  | _ => exact ⟨h, rfl⟩

/-! ### The invariant of a run -/

/-- The instance was created, among the calls of the run, while `spec` was active. -/
def CreatedUnder (signer : Signer) (past : List Op) (i : String) (spec : List (String × Json)) : Prop :=
  ∃ before rest h state, past = before ++ .createInstance i :: rest ∧
    (after signer before).active = some h ∧ (after signer before).protocols.lookup h = some spec ∧
    (step signer (after signer before) (.createInstance i)).1 = .created i state

variable {signer : Signer} {past : List Op} {s : Engine}

theorem CreatedUnder.later {i : String} {spec : List (String × Json)} (h : CreatedUnder signer past i spec) (op : Op) :
    CreatedUnder signer (past ++ [op]) i spec := by
  obtain ⟨before, rest, hash, state, rfl, hrest⟩ := h
  exact ⟨before, rest ++ [op], hash, state, by simp, hrest⟩

/-- What is known of an instance: where it was created, its path, and that its protocol
is still the text it was. -/
structure Tracked (signer : Signer) (past : List Op) (s : Engine) (i : String) (state : Json) (h : String)
    (spec spec' : List (String × Json)) : Prop where
  created : CreatedUnder signer past i spec
  wf : (Json.obj spec).wf = true
  conforms : Conforms spec (rows s i) state
  current : s.protocols.lookup h = some spec'
  text : dumps (.obj spec') = dumps (.obj spec)

/-- What holds after the calls `past`. -/
structure FacInv (signer : Signer) (past : List Op) (s : Engine) : Prop where
  chained : Chained s.db.ledger
  hex : HexRows s.db.ledger
  oneTenant : OneTenant s.db.ledger
  tenants : ∀ q ∈ s.db.instances, q.tenantId = defaultTenant
  listed : ∀ r ∈ s.db.ledger, ∃ q, s.db.getInstance r.instanceId defaultTenant = some q
  protocols : ∀ h spec, s.protocols.lookup h = some spec → (Json.obj spec).wf = true
  active : ∀ h, s.active = some h → ∃ spec, s.protocols.lookup h = some spec
  known : ∀ i state h, s.instances.lookup i = some (state, h) → ∃ spec spec', Tracked signer past s i state h spec spec'
  unknown : ∀ i, s.instances.lookup i = none → rows s i = []

theorem FacInv.fresh : FacInv signer [] .fresh where
  chained := Chained.nil
  hex := by simp [HexRows, Engine.fresh, Db.fresh]
  oneTenant := by simp [OneTenant, Engine.fresh, Db.fresh]
  tenants := by simp [Engine.fresh, Db.fresh]
  listed := by simp [Engine.fresh, Db.fresh]
  protocols := by simp [Engine.fresh]
  active := by simp [Engine.fresh]
  known := by simp [Engine.fresh]
  unknown _ _ := rfl

/-- A call that leaves rows, states and protocols. -/
theorem FacInv.frame (h : FacInv signer past s) (op : Op) {t : Engine} (hl : t.db.ledger = s.db.ledger)
    (hi : t.instances = s.instances) (hp : t.protocols = s.protocols) (ha : t.active = s.active)
    (ht : ∀ q ∈ t.db.instances, q.tenantId = defaultTenant)
    (hg : ∀ i q, s.db.getInstance i defaultTenant = some q → ∃ q', t.db.getInstance i defaultTenant = some q') :
    FacInv signer (past ++ [op]) t where
  chained := hl ▸ h.chained
  hex := hl ▸ h.hex
  oneTenant := hl ▸ h.oneTenant
  tenants := ht
  listed r hr := by
    rw [hl] at hr
    obtain ⟨q, hq⟩ := h.listed r hr
    exact hg _ q hq
  protocols := hp ▸ h.protocols
  active := hp ▸ ha ▸ h.active
  known i state hash hlook := by
    rw [hi] at hlook
    obtain ⟨spec, spec', hc⟩ := h.known i state hash hlook
    refine ⟨spec, spec', hc.created.later op, hc.wf, ?_, hp ▸ hc.current, hc.text⟩
    rw [rows, hl]
    exact hc.conforms
  unknown i hlook := by
    rw [hi] at hlook
    rw [rows, hl]
    exact h.unknown i hlook

theorem FacInv.compile (h : FacInv signer past s) {now : String} {spec : List (String × Json)}
    {wf : (Json.obj spec).wf = true} (hok : Ok s (.compile now spec wf)) :
    FacInv signer (past ++ [.compile now spec wf]) (step signer s (.compile now spec wf)).2 := by
  have hledger : (s.db.registerProtocol now (sha256Hex (dumps (.obj spec))) (.obj spec)).ledger = s.db.ledger := by
    rw [Db.registerProtocol]; split <;> rfl
  have hinst : (s.db.registerProtocol now (sha256Hex (dumps (.obj spec))) (.obj spec)).instances = s.db.instances := by
    rw [Db.registerProtocol]; split <;> rfl
  simp only [step, Engine.compile]
  refine ⟨by simpa [hledger] using h.chained, by simpa [hledger] using h.hex, by simpa [hledger] using h.oneTenant,
    by simpa [hinst] using h.tenants, ?_, ?_, ?_, ?_, ?_⟩
  · intro r hr
    rw [hledger] at hr
    obtain ⟨q, hq⟩ := h.listed r hr
    exact ⟨q, by rw [Db.getInstance, hinst]; exact hq⟩
  · intro hash spec' hlook
    rw [List.lookup_cons] at hlook
    split at hlook
    · obtain rfl := Option.some.inj hlook
      exact wf
    · exact h.protocols hash spec' hlook
  · intro hash hhash
    obtain rfl := Option.some.inj hhash
    exact ⟨spec, by rw [List.lookup_cons, beq_self_eq_true]⟩
  · intro i state hash hlook
    obtain ⟨spec₀, spec', hc⟩ := h.known i state hash hlook
    have hrows : Conforms spec₀ (rowsOf (s.db.registerProtocol now (sha256Hex (dumps (.obj spec))) (.obj spec)).ledger
        defaultTenant i) state := hledger.symm ▸ hc.conforms
    by_cases hhash : hash = sha256Hex (dumps (.obj spec))
    · -- the new spec takes the place of one with its text
      refine ⟨spec₀, spec, hc.created.later _, hc.wf, hrows, ?_, ?_⟩
      · simp only
        rw [List.lookup_cons, hhash, beq_self_eq_true]
      · rw [← hok spec' (hhash ▸ hc.current), hc.text]
    · refine ⟨spec₀, spec', hc.created.later _, hc.wf, hrows, ?_, hc.text⟩
      simp only
      rw [List.lookup_cons, beq_eq_false_iff_ne.2 hhash]
      exact hc.current
  · intro i hlook
    simp only [rows, hledger]
    exact h.unknown i hlook

theorem FacInv.createInstance (h : FacInv signer past s) (hs : s = after signer past) (i : String) :
    FacInv signer (past ++ [.createInstance i]) (step signer s (.createInstance i)).2 := by
  rcases createInstance_cases signer s i with ⟨e, he⟩ | ⟨hash, state, hactive, hnew, hstate, he⟩
  · rw [he]
    exact h.frame _ rfl rfl rfl rfl h.tenants fun _ q hq => ⟨q, hq⟩
  · obtain ⟨spec, hspec⟩ := h.active hash hactive
    rw [hspec, Option.getD_some] at hstate
    have hborn : CreatedUnder signer (past ++ [.createInstance i]) i spec :=
      ⟨past, [], hash, state, rfl, hs ▸ hactive, hs ▸ hspec, by rw [← hs, he]⟩
    rw [he]
    refine ⟨h.chained, h.hex, h.oneTenant, h.tenants, h.listed, h.protocols, h.active, ?_, ?_⟩
    · intro j state' hash' hlook
      simp only [List.lookup_cons] at hlook
      split at hlook
      · rename_i hij
        obtain rfl : j = i := by simpa using hij
        obtain ⟨rfl, rfl⟩ := Prod.mk.inj (Option.some.inj hlook)
        refine ⟨spec, spec, hborn, h.protocols _ _ hspec, ?_, hspec, rfl⟩
        have hrows : rows s j = [] := h.unknown j hnew
        exact hrows.symm ▸ Conforms.nil hstate
      · obtain ⟨spec₀, spec', hc⟩ := h.known j state' hash' hlook
        exact ⟨spec₀, spec', hc.created.later _, hc.wf, hc.conforms, hc.current, hc.text⟩
    · intro j hlook
      simp only [List.lookup_cons] at hlook
      split at hlook
      · cases hlook
      · exact h.unknown j hlook

/-- The instance row that an append leaves. -/
theorem getInstance_appended_self {db : Db} (ht : ∀ q ∈ db.instances, q.tenantId = defaultTenant) (now : String)
    (p : ProofV1) :
    (∀ q ∈ (db.appended now p.toDict).instances, q.tenantId = defaultTenant) ∧
      ∃ q, (db.appended now p.toDict).getInstance p.row.instanceId defaultTenant = some q := by
  have htenant : p.toDict.tenant = defaultTenant := rfl
  have hid : p.row.instanceId = p.toDict.instanceId := rfl
  -- it is enough that some row has the id: all are of the default tenant
  have hfind : ∀ {l : List InstanceRow}, (∀ q ∈ l, q.tenantId = defaultTenant) →
      (∃ q ∈ l, q.instanceId = p.row.instanceId) →
      ∃ q, l.find? (fun r => r.instanceId = p.row.instanceId ∧ r.tenantId = defaultTenant) = some q := by
    rintro l hl ⟨q, hq, hqi⟩
    refine Option.isSome_iff_exists.1 (List.find?_isSome.2 ⟨q, hq, ?_⟩)
    simp [hqi, hl q hq]
  simp only [Db.appended, Db.getInstance, ensureInstance, insertInstance, hasInstance, htenant]
  split
  · rename_i hhas
    obtain ⟨q, hq, hkey⟩ := List.any_eq_true.1 hhas
    exact ⟨ht, hfind ht ⟨q, hq, (of_decide_eq_true hkey).2⟩⟩
  · split
    · rename_i hany
      obtain ⟨q, hq, hkey⟩ := List.any_eq_true.1 hany
      exact ⟨ht, hfind ht ⟨q, hq, of_decide_eq_true hkey⟩⟩
    · have hall : ∀ q ∈ db.instances ++ [⟨defaultTenant, p.toDict.instanceId, p.toDict.policyVersion,
          p.toDict.toState, 0, false, now⟩], q.tenantId = defaultTenant := by
        intro q hq
        rcases List.mem_append.1 hq with hq | hq
        · exact ht q hq
        · obtain rfl := List.mem_singleton.1 hq
          rfl
      exact ⟨hall, hfind hall ⟨_, List.mem_append_right _ (List.mem_singleton_self _), rfl⟩⟩

theorem FacInv.transition (h : FacInv signer past s) (env : CallEnv) (c : TransitionCall) :
    FacInv signer (past ++ [.transition env c]) (step signer s (.transition env c)).2 := by
  rw [step]
  rcases transition_cases signer h.chained h.hex env c with
    ⟨e, he⟩ | ⟨f, hash, pairs, p, v, hlook, hpairs, hmem, -, hpi, hpf, hpt, hchained, he⟩
  · rw [he]
    exact h.frame _ rfl rfl rfl rfl h.tenants fun _ q hq => ⟨q, hq⟩
  · rw [he]
    obtain ⟨htenants, hself⟩ := getInstance_appended_self h.tenants env.now.text p
    refine ⟨hchained, ?_, ?_, htenants, ?_, h.protocols, h.active, ?_, ?_⟩
    · intro r hr
      rcases List.mem_append.1 hr with hr | hr
      · exact h.hex r hr
      · obtain rfl := List.mem_singleton.1 hr
        exact ⟨p.ledger.currentHash, rfl⟩
    · intro r hr
      rcases List.mem_append.1 hr with hr | hr
      · exact h.oneTenant r hr
      · obtain rfl := List.mem_singleton.1 hr
        rfl
    · intro r hr
      rcases List.mem_append.1 hr with hr | hr
      · obtain ⟨q, hq⟩ := h.listed r hr
        exact ⟨q, getInstance_appended hq _ _⟩
      · obtain rfl := List.mem_singleton.1 hr
        exact hself
    · intro j state' hash' hlook'
      simp only [List.lookup_cons] at hlook'
      split at hlook'
      · rename_i hij
        obtain rfl : j = c.instanceId := by simpa using hij
        obtain ⟨rfl, rfl⟩ := Prod.mk.inj (Option.some.inj hlook')
        obtain ⟨spec, spec', hc⟩ := h.known _ _ _ hlook
        rw [hc.current, Option.getD_some] at hpairs
        obtain ⟨pairs₀, hpairs₀, hmem₀⟩ := allowed_of_dumps hc.wf (h.protocols _ _ hc.current) hc.text hpairs hmem
        refine ⟨spec, spec', hc.created.later _, hc.wf, ?_, hc.current, hc.text⟩
        simp only [rows]
        rw [rows_appended, if_pos hpi, ← hpt]
        exact Conforms.concat (hpf.symm ▸ hc.conforms) hpairs₀ (hpf.symm ▸ hpt.symm ▸ hmem₀)
      · rename_i hij
        obtain ⟨spec₀, spec', hc⟩ := h.known j state' hash' hlook'
        refine ⟨spec₀, spec', hc.created.later _, hc.wf, ?_, hc.current, hc.text⟩
        have hne : p.row.instanceId ≠ j := by
          rw [hpi]
          rintro rfl
          simp at hij
        simp only [rows]
        rw [rows_appended, if_neg hne]
        exact hc.conforms
    · intro j hlook'
      simp only [List.lookup_cons] at hlook'
      split at hlook'
      · cases hlook'
      · rename_i hij
        have hne : p.row.instanceId ≠ j := by
          rw [hpi]
          rintro rfl
          simp at hij
        simp only [rows]
        rw [rows_appended, if_neg hne]
        exact h.unknown j hlook'

theorem FacInv.exportProof (h : FacInv signer past s) (env : CallEnv) (i : String) :
    FacInv signer (past ++ [.exportProof env i]) (step signer s (.exportProof env i)).2 := by
  rcases export_cases signer s env i with ⟨e, he⟩ | ⟨-, j, he⟩
  · rw [he]
    exact h.frame _ rfl rfl rfl rfl h.tenants fun _ q hq => ⟨q, hq⟩
  · rw [he]
    refine h.frame _ rfl rfl rfl rfl ?_ fun k q hq => ⟨_, by rw [getInstance_freeze, hq]; rfl⟩
    intro q hq
    obtain ⟨r, hr, rfl⟩ := List.mem_map.1 hq
    have := h.tenants r hr
    split_ifs <;> exact this

/-- **One call keeps the invariant.** -/
theorem FacInv.step (h : FacInv signer past s) (hs : s = after signer past) {op : Op} (hok : Ok s op) :
    FacInv signer (past ++ [op]) (step signer s op).2 := by
  cases op with
  | compile now spec wf => exact h.compile hok
  | createInstance i => exact h.createInstance hs i
  | transition env c => exact h.transition env c
  | exportProof env i => exact h.exportProof env i
  | _ => exact h.frame _ rfl rfl rfl rfl h.tenants fun _ q hq => ⟨q, hq⟩

theorem FacInv.run {ops : List Op} (hok : Along (Facade.step signer) Ok .fresh ops) :
    FacInv signer ops (after signer ops) := by
  induction ops using List.reverseRecOn with
  | nil => exact FacInv.fresh
  | append_singleton ops op ih =>
    obtain ⟨hops, hop, -⟩ := Along.append.1 hok
    have hstep := (ih hops).step rfl hop
    rwa [after, final_concat]

/-- An export with rows freezes the instance. -/
theorem FacInv.export_frozen (h : FacInv signer past s) {env : CallEnv} {i : String} {j : Json}
    (hok : Ok s (.exportProof env i)) (hexp : (Facade.step signer s (.exportProof env i)).1 = .package j) :
    Frozen (Facade.step signer s (.exportProof env i)).2 i ∧
      rows (Facade.step signer s (.exportProof env i)).2 i = rows s i := by
  rcases export_cases signer s env i with ⟨e, he⟩ | ⟨hfault, j', he⟩
  · rw [he] at hexp
    cases hexp
  · rw [he]
    refine ⟨?_, rfl⟩
    obtain ⟨r, hr⟩ := List.exists_mem_of_ne_nil _ (hok hfault)
    obtain ⟨hmem, -, hri⟩ := mem_rowsOf.1 hr
    obtain ⟨q, hq⟩ := h.listed r hmem
    rw [hri] at hq
    have hkey := List.find?_some hq
    refine frozen_iff.2 ⟨_, by rw [getInstance_freeze, hq]; rfl, ?_⟩
    simp only
    rw [if_pos (by simpa using hkey)]

/-- Through the calls after it, a frozen instance keeps its rows. -/
theorem Frozen.run {i : String} {ops : List Op} : ∀ {past : List Op} {s : Engine}, FacInv signer past s →
    s = after signer past → Frozen s i → Along (Facade.step signer) Ok s ops →
      rows (final (Facade.step signer) s ops) i = rows s i := by
  induction ops with
  | nil => exact fun _ _ _ _ => rfl
  | cons op ops ih =>
    intro past s h hs hfrozen hok
    obtain ⟨hnext, hrows⟩ := hfrozen.step signer h.chained h.hex op
    have hstep := h.step hs hok.1
    have hs' : (Facade.step signer s op).2 = after signer (past ++ [op]) := by rw [after, final_concat, hs, after]
    rw [← hrows]
    exact ih hstep hs' hnext hok.2

/-! ### Protocol conformance -/

/-- What the facade promises of a run. -/
structure ProtocolConformance (signer : Signer) (ops : List Op) : Prop where
  /-- The rows of an instance are a path of the protocol it was created under, and end
  in the state in memory. -/
  path : ∀ past future, ops = past ++ future → ∀ i state h, (after signer past).instances.lookup i = some (state, h) →
    ∃ spec, CreatedUnder signer past i spec ∧ Conforms spec (rows (after signer past) i) state
  /-- Only instances that were created have rows. -/
  known : ∀ past future, ops = past ++ future → ∀ r ∈ (after signer past).db.ledger,
    ((after signer past).instances.lookup r.instanceId).isSome = true
  /-- A transition that raises changes neither the ledger nor the states. -/
  refused : ∀ past env c future e, ops = past ++ .transition env c :: future →
    (step signer (after signer past) (.transition env c)).1 = .raised e →
    (step signer (after signer past) (.transition env c)).2.db.ledger = (after signer past).db.ledger ∧
      (step signer (after signer past) (.transition env c)).2.instances = (after signer past).instances
  /-- An instance that was exported gains no rows. -/
  frozen : ∀ past env i between future j, ops = past ++ .exportProof env i :: (between ++ future) →
    (step signer (after signer past) (.exportProof env i)).1 = .package j →
    rows (after signer (past ++ .exportProof env i :: between)) i = rows (after signer past) i

/-- A protocol of one step. -/
def loanSpec : List (String × Json) :=
  [("initial_state", .str "pending"),
    ("transitions", .arr [.obj [("from_state", .str "pending"), ("to_state", .str "approved")]])]

theorem loanSpec_wf : (Json.obj loanSpec).wf = true := by decide

/-- The step. -/
def loanStep : TransitionCall where
  instanceId := "loan_1"
  toState := "approved"
  inputHash := "in"
  outputHash := "out"
  modelVersion := "v1.0.0"
  agentVersion := "a1"
  policyVersion := "p1"
  metadataJson := "\x7b\x7d"

/-- Approvals, the protocol, and the instance. -/
def loanSetup : List Op :=
  [.addApprovedModel "2026-01-01T00:00:00Z" "v1.0.0" "", .addApprovedAgent "2026-01-01T00:00:00Z" "a1" "",
    .addApprovedPolicy "2026-01-01T00:00:00Z" "p1" "", .compile "2026-01-01T00:00:00Z" loanSpec loanSpec_wf,
    .createInstance "loan_1"]

/-- The step is recorded wherever the loan is in its initial state and not frozen. -/
theorem loanStep_recorded {past : List Op} {s : Engine} {h : String} (hinv : FacInv loanSigner past s)
    (hlook : s.instances.lookup "loan_1" = some (.str "pending", h)) (hspec : s.protocols.lookup h = some loanSpec)
    (hm : "v1.0.0" ∈ s.db.modelVersions) (ha : "a1" ∈ s.db.agentVersions) (hp : "p1" ∈ s.db.policyVersions)
    (hfree : (s.db.getInstance "loan_1" defaultTenant).any InstanceRow.frozen = false)
    (hrows : rows s "loan_1" = []) :
    rows (step loanSigner s (.transition loanEnv loanStep)).2 "loan_1" ≠ [] := by
  have hpairs : allowedPairs loanSpec = .ok [(.str "pending", .str "approved")] := rfl
  have hcheck : checkTransition s loanStep = .ok (.str "pending", h) := by
    simp [checkTransition, loanStep, hlook, hspec, hm, ha, hp, hpairs, hfree]
  have hmd : loadMetadata loanStep.metadataJson = .ok noMetadata := by
    rw [loadMetadata, if_pos (.inr rfl)]
  have hrec : Recordable s.db (loanStep.args "pending" noMetadata) :=
    { modelVersion := hm
      agentVersion := ha
      policyVersion := hp
      metadata := rfl
      rawInputs := rfl
      seed := fun h => by cases h
      calls := fun h => by cases h
      instanceId_ne := (by decide : "loan_1" ≠ "")
      fromState_ne := (by decide : "pending" ≠ "")
      toState_ne := (by decide : "approved" ≠ "")
      reasonCode_ne := (by decide : "TRANSITION" ≠ "")
      policyRule_ne := (by decide : "p1" ++ ".auto" ≠ "")
      modelVersion_ne := (by decide : "v1.0.0" ≠ "")
      agentVersion_ne := (by decide : "a1" ≠ "")
      policyVersion_ne := (by decide : "p1" ≠ "") }
  obtain ⟨p, hb⟩ : ∃ p, buildProof s.db loanSigner loanEnv (loanStep.args "pending" noMetadata) = .ok p :=
    (buildProof_isOk_iff hinv.chained hinv.hex).2 ⟨hrec, rfl⟩
  obtain ⟨hbuilt, hprev, hseq⟩ := buildProof_ok hinv.chained hinv.hex hb
  obtain ⟨hlen, hvalid, -⟩ : s.db.Appendable p.toDict := by
    refine (hbuilt.appendable_iff hinv.chained hinv.oneTenant hprev hseq).2 fun r hmem => ?_
    have hnone : rowsOf s.db.ledger defaultTenant "loan_1" = [] := hrows
    rw [show (loanStep.args "pending" noMetadata).instanceId = "loan_1" from rfl, hnone] at hmem
    cases hmem
  have happ : s.db.appendUnconstrained loanEnv.now.text p.toDict =
      (.ok p.toDict.sequenceId, s.db.appended loanEnv.now.text p.toDict) := by
    simp only [Db.appendUnconstrained, ProofDict.checkSignature, if_pos hlen, hvalid]
  rw [step, transition, hcheck, hmd]
  simp only [recordTransition, recordDecision, hb, happ, rows]
  rw [rows_appended, if_pos (show p.row.instanceId = "loan_1" from hbuilt.instanceId)]
  simp

/-- The facade before the instance is created. -/
def beforeLoan : Engine where
  db := ((((Db.fresh.addApprovedModel "2026-01-01T00:00:00Z" "v1.0.0" "").addApprovedAgent "2026-01-01T00:00:00Z"
    "a1" "").addApprovedPolicy "2026-01-01T00:00:00Z" "p1" "").registerProtocol "2026-01-01T00:00:00Z"
      (sha256Hex (dumps (.obj loanSpec))) (.obj loanSpec))
  protocols := [(sha256Hex (dumps (.obj loanSpec)), loanSpec)]
  instances := []
  active := some (sha256Hex (dumps (.obj loanSpec)))

theorem after_loanSetup : after loanSigner loanSetup =
    { beforeLoan with instances := [("loan_1", .str "pending", sha256Hex (dumps (.obj loanSpec)))] } := by
  have hbefore : after loanSigner loanSetup = (step loanSigner beforeLoan (.createInstance "loan_1")).2 := rfl
  rw [hbefore]
  have hspec : beforeLoan.protocols.lookup (sha256Hex (dumps (.obj loanSpec))) = some loanSpec := by
    rw [beforeLoan, List.lookup_cons, beq_self_eq_true]
  rcases createInstance_cases loanSigner beforeLoan "loan_1" with ⟨e, he⟩ | ⟨h, state, hactive, -, hstate, he⟩
  · rw [step, Engine.createInstance, show beforeLoan.active = some (sha256Hex (dumps (.obj loanSpec))) from rfl] at he
    simp only [hspec, show beforeLoan.instances = [] from rfl] at he
    cases congrArg Prod.fst he
  · obtain rfl : sha256Hex (dumps (.obj loanSpec)) = h := Option.some.inj hactive
    rw [hspec] at hstate
    obtain rfl : Json.str "pending" = state := Option.some.inj hstate
    rw [he]
    rfl

theorem loanSetup_good : Along (step loanSigner) Ok .fresh loanSetup :=
  ⟨trivial, trivial, trivial, (fun _ h => by cases h), trivial, trivial⟩

/-- What `loanStep_recorded` asks for, after the setup and any changes to the instances
table that leave the loan unfrozen. -/
theorem loanStep_after {past : List Op} {s : Engine} (hinv : FacInv loanSigner past s)
    (hs : s = { after loanSigner loanSetup with db := s.db })
    (hdb : s.db = { beforeLoan.db with instances := s.db.instances })
    (hfree : (s.db.getInstance "loan_1" defaultTenant).any InstanceRow.frozen = false) :
    rows (step loanSigner s (.transition loanEnv loanStep)).2 "loan_1" ≠ [] := by
  have hinst : s.instances = [("loan_1", .str "pending", sha256Hex (dumps (.obj loanSpec)))] := by
    rw [hs, after_loanSetup]
  have hprot : s.protocols = [(sha256Hex (dumps (.obj loanSpec)), loanSpec)] := by
    rw [hs, after_loanSetup]
    rfl
  refine loanStep_recorded (h := sha256Hex (dumps (.obj loanSpec))) hinv ?_ ?_ ?_ ?_ ?_ hfree ?_
  · rw [hinst]; rfl
  · rw [hprot, List.lookup_cons, beq_self_eq_true]
  · rw [hdb]; exact List.mem_singleton_self _
  · rw [hdb]; exact List.mem_singleton_self _
  · rw [hdb]
    have hp : (Db.fresh.addApprovedPolicy "2026-01-01T00:00:00Z" "p1" "").policyVersions = ["p1"] := by decide
    exact hp ▸ List.mem_singleton_self _
  · rw [rows, hdb]; rfl

end Facade
end ProvableAi
