/-
# A proof as it is written

`verify_proof` hashes the parsed proof, not the document.  What `schema.py` drops
or rewrites on the way is not covered by the hash: members that a model does not
know, whether a member with its default value is written at all, and the case of
`inputs_hash`.  "Any modification to any field in any entry breaks every
subsequent hash", says `docs/security-architecture.md`.

`ReadAs` says, section by section, how the dump that is hashed comes from the
section as written.  `sections_same_iff` puts two accepted documents with one
`current_hash` next to each other: their sections are the same exactly if they
agree in the three points above.  A document `InFull` leaves nothing to drop or
rewrite: its sections are hashed as they are written (`inFull_iff`).
-/

import ProvableAi.Json.Access
import ProvableAi.Canonical.Equality
import ProvableAi.Verifier

namespace ProvableAi

/-! ### The sections -/

/-- A section of a proof that is hashed. -/
inductive Section where
  | decision
  | decisionContext
  | governance
  | determinism
  deriving DecidableEq

namespace Section

/-- Its key in the document. -/
def key : Section → String
  | decision => "decision"
  | decisionContext => "decision_context"
  | governance => "governance"
  | determinism => "determinism"

/-- The members its model knows. -/
def fields : Section → List String
  | decision => ["from_state", "to_state"]
  | decisionContext => ["reason_code", "policy_rule", "model_version", "inputs_hash", "feature_contributions",
      "threshold_used", "metadata"]
  | governance => ["model_version", "agent_version", "policy_version"]
  | determinism => ["mode", "seed", "external_calls_hash"]

/-- Those with a default. -/
def optional : Section → List String
  | decisionContext => ["feature_contributions", "threshold_used", "metadata"]
  | determinism => ["seed", "external_calls_hash"]
  | _ => []

/-- The section as written in a document. -/
def written (s : Section) (d : Json) : Json := (d.get? s.key).getD .null

/-- The section as it is hashed. -/
def dump (s : Section) (p : ProofV1) : Json :=
  match s with
  | decision => p.decision.dump
  | decisionContext => p.decisionContext.dump
  | governance => p.governance.dump
  | determinism => p.determinism.dump

/-- A dump has the members of its model, all of them. -/
theorem dump_get?_isSome (s : Section) (p : ProofV1) (f : String) :
    ((s.dump p).get? f).isSome = true ↔ f ∈ s.fields := by
  cases s <;> exact Json.lookup_isSome_iff

theorem dump_isObj (s : Section) (p : ProofV1) : (s.dump p).isObj = true := by
  cases s <;> rfl

end Section

/-! ### What the models read -/

namespace Json

theorem strField_eq_some {j : Json} {k s : String} : j.strField k = some s ↔ j.get? k = some (.str s) := by
  rw [strField]
  cases j.get? k with
  | none => simp
  | some v => cases v <;> simp

theorem optStrField_eq_some {j : Json} {k : String} {o : Option String} (h : j.optStrField k = some o) :
    j.get? k = none ∨ j.get? k = some (.ofOptStr o) := by
  rw [optStrField] at h
  cases hv : j.get? k with
  | none => exact .inl rfl
  | some v =>
    rw [hv] at h
    cases v with
    | null => obtain rfl := Option.some.inj h; exact .inr rfl
    | str s => obtain rfl := Option.some.inj h; exact .inr rfl
    | _ => cases h

theorem strDicts_eq_some {v : Json} {ds : List (List (String × String))} (h : v.strDicts = some ds) :
    v = .arr (ds.map ofStrDict) := by
  cases v with
  | arr xs =>
    rw [strDicts] at h
    have hall := forall₂_of_mapM h
    simp only [strDict_eq_some] at hall
    exact congrArg arr (List.forall₂_eq_eq_eq ▸ List.forall₂_map_right_iff.2 hall)
  | _ => cases h

end Json

/-- How a section that is dumped as `w` was written: an object, each known member as it
is dumped or, where it has a default, not at all; `inputs_hash` in any case. -/
structure ReadAs (s : Section) (v w : Json) : Prop where
  isObj : v.isObj = true
  known : ∀ f ∈ s.fields, f ≠ "inputs_hash" → f ∈ s.optional ∧ v.get? f = none ∨ v.get? f = w.get? f
  inputsHash : "inputs_hash" ∈ s.fields →
    ∃ t, v.get? "inputs_hash" = some (.str t) ∧ w.get? "inputs_hash" = some (.str (lower t))

theorem HexText.text_of_make {n : ℕ} {v : String} {t : HexText n} (h : HexText.make n v = some t) :
    t.text = lower v := by
  rw [HexText.make] at h
  split at h
  · rw [← Option.some.inj h]
  · cases h

theorem Decision.readAs {j : Json} {d : Decision} (h : Decision.parse j = some d) :
    ReadAs .decision j d.dump := by
  simp only [Decision.parse, Option.bind_eq_bind, Option.bind_eq_some_iff, Json.strField_eq_some] at h
  obtain ⟨_, hf, _, ht, hm⟩ := h
  obtain ⟨rfl, rfl⟩ := Decision.make_eq_some.1 hm
  refine ⟨Json.isObj_of_get? hf, ?_, fun h => absurd h (by decide)⟩
  simp only [Section.fields, List.forall_mem_cons]
  exact ⟨fun _ => .inr hf, fun _ => .inr ht, by simp⟩

theorem Governance.readAs {j : Json} {g : Governance} (h : Governance.parse j = some g) :
    ReadAs .governance j g.dump := by
  simp only [Governance.parse, Option.bind_eq_bind, Option.bind_eq_some_iff, Json.strField_eq_some] at h
  obtain ⟨_, hv, _, ha, _, hp, hm⟩ := h
  obtain ⟨rfl, rfl, rfl⟩ := Governance.make_eq_some.1 hm
  refine ⟨Json.isObj_of_get? hv, ?_, fun h => absurd h (by decide)⟩
  simp only [Section.fields, List.forall_mem_cons]
  exact ⟨fun _ => .inr hv, fun _ => .inr ha, fun _ => .inr hp, by simp⟩

theorem DeterminismMode.value_of_ofValue {s : String} {m : DeterminismMode} (h : ofValue s = some m) :
    m.value = s := by
  unfold ofValue at h
  split_ifs at h with h₁ h₂ h₃
  · obtain rfl := Option.some.inj h; exact h₁.symm
  · obtain rfl := Option.some.inj h; exact h₂.symm
  · obtain rfl := Option.some.inj h; exact h₃.symm

theorem Determinism.readAs {j : Json} {t : Determinism} (h : Determinism.parse j = some t) :
    ReadAs .determinism j t.dump := by
  simp only [Determinism.parse, Option.bind_eq_bind, Option.bind_eq_some_iff, Json.strField_eq_some] at h
  obtain ⟨v, hv, m, hm, s, hs, e, he, hmake⟩ := h
  obtain ⟨rfl, rfl, rfl⟩ := Determinism.make_eq_some.1 hmake
  rw [← DeterminismMode.value_of_ofValue hm] at hv
  refine ⟨Json.isObj_of_get? hv, ?_, fun h => absurd h (by decide)⟩
  simp only [Section.fields, List.forall_mem_cons]
  refine ⟨fun _ => .inr hv, fun _ => ?_, fun _ => ?_, by simp⟩
  · exact (Json.optStrField_eq_some hs).imp (fun h => ⟨by decide, h⟩) id
  · exact (Json.optStrField_eq_some he).imp (fun h => ⟨by decide, h⟩) id

theorem DecisionContext.readAs {j : Json} {c : DecisionContext} (h : DecisionContext.parse j = some c) :
    ReadAs .decisionContext j c.dump := by
  simp only [DecisionContext.parse, Option.bind_eq_bind, Option.bind_eq_some_iff, Json.strField_eq_some] at h
  obtain ⟨_, hr, _, hp, _, hv, i, hi, _, hf, _, ht, _, hd, hm⟩ := h
  obtain ⟨rfl, rfl, rfl, hhex, rfl, rfl, rfl⟩ := DecisionContext.make_eq_some.1 hm
  have hfeatures : j.get? "feature_contributions" = none ∨
      j.get? "feature_contributions" = some (.arr (c.featureContributions.map Json.ofStrDict)) := by
    rw [DecisionContext.featuresField] at hf
    cases hg : j.get? "feature_contributions" with
    | none => exact .inl rfl
    | some w => rw [hg] at hf; exact .inr (congrArg some (Json.strDicts_eq_some hf))
  have hmetadata : j.get? "metadata" = none ∨ j.get? "metadata" = some (.obj c.metadata) := by
    rw [DecisionContext.metadataField] at hd
    cases hg : j.get? "metadata" with
    | none => exact .inl rfl
    | some w =>
      rw [hg] at hd
      cases w with
      | obj kvs => rw [Option.some.inj hd]; exact .inr rfl
      | _ => cases hd
  refine ⟨Json.isObj_of_get? hr, ?_, fun _ => ⟨i, hi, ?_⟩⟩
  · simp only [Section.fields, List.forall_mem_cons]
    refine ⟨fun _ => .inr hr, fun _ => .inr hp, fun _ => .inr hv, fun h => absurd rfl h, fun _ => ?_, fun _ => ?_,
      fun _ => ?_, by simp⟩
    · exact hfeatures.imp (fun h => ⟨by decide, h⟩) id
    · exact (Json.optStrField_eq_some ht).imp (fun h => ⟨by decide, h⟩) id
    · exact hmetadata.imp (fun h => ⟨by decide, h⟩) id
  · rw [← HexText.text_of_make hhex]
    rfl

/-- **The hashed sections come from the written ones.** -/
theorem ProofV1.readAs {py : Pydantic} {d : Json} {p : ProofV1} (h : ProofV1.parse py d = some p) (s : Section) :
    ReadAs s (s.written d) (s.dump p) := by
  simp only [ProofV1.parse, Option.bind_eq_bind, Option.bind_eq_some_iff] at h
  obtain ⟨-, -, _, -, _, hd, _, hc, _, hg, _, ht, _, -, _, -, hm⟩ := h
  obtain ⟨-, rfl, rfl, rfl, rfl, -, -⟩ := ProofV1.make_eq_some.1 hm
  have hsection : ∀ {α : Type} {parse : Json → Option α} {k : String} {a : α},
      d.modelField parse k = some a → parse ((d.get? k).getD .null) = some a := by
    intro α parse k a h
    obtain ⟨v, hv, h⟩ := Option.bind_eq_some_iff.1 h
    rw [hv]
    exact h
  cases s with
  | decision => exact Decision.readAs (hsection hd)
  | decisionContext => exact DecisionContext.readAs (hsection hc)
  | governance => exact Governance.readAs (hsection hg)
  | determinism => exact Determinism.readAs (hsection ht)

/-! ### Two documents with one hash -/

/-- The sections of the two documents are the same JSON values. -/
def SameSections (d e : Json) : Prop := ∀ s : Section, (s.written d).canon = (s.written e).canon

/-- The two documents agree in what the models drop or rewrite. -/
structure WrittenAlike (d e : Json) : Prop where
  /-- The members that no model knows. -/
  unknown : ∀ (s : Section) (f : String), f ∉ s.fields →
    ((s.written d).get? f).map Json.canon = ((s.written e).get? f).map Json.canon
  /-- Which of the members with a default are written. -/
  optional : ∀ s : Section, ∀ f ∈ s.optional, ((s.written d).get? f).isSome = ((s.written e).get? f).isSome
  /-- The text of `inputs_hash`, its case included. -/
  inputsHash : (Section.decisionContext.written d).get? "inputs_hash" =
    (Section.decisionContext.written e).get? "inputs_hash"

/-- `ledger.current_hash` as written. -/
def currentHashText (d : Json) : Option String := (d.get? "ledger").bind fun l => l.strField "current_hash"

/-- Objects have one canonical form exactly if every member has. -/
theorem Json.canon_eq_iff {v w : Json} (hv : v.wf = true) (hw : w.wf = true) (hvo : v.isObj = true)
    (hwo : w.isObj = true) : v.canon = w.canon ↔ ∀ f, (v.get? f).map canon = (w.get? f).map canon := by
  cases v with
  | obj kvs =>
    cases w with
    | obj lvs => exact PyVal.canon_obj_eq_iff ((wf_obj kvs).1 hv).1 ((wf_obj lvs).1 hw).1
    | _ => cases hwo
  | _ => cases hvo

theorem Section.written_wf {d : Json} (h : d.wf = true) (s : Section) : (s.written d).wf = true := by
  rw [written]
  cases hv : d.get? s.key with
  | none => rfl
  | some v => exact Json.wf_of_get? h hv

theorem Section.dump_wf {p : ProofV1} (h : p.payload.wf = true) (s : Section) : (s.dump p).wf = true := by
  cases s with
  | decision => exact p.decision.dump_wf
  | decisionContext => exact ProofV1.payload_wf.1 h
  | governance => exact p.governance.dump_wf
  | determinism => exact p.determinism.dump_wf

/-- One content, one canonical dump of every section. -/
theorem Section.dump_canon_eq {p q : ProofV1} (h : p.content = q.content) (s : Section) :
    (s.dump p).canon = (s.dump q).canon := by
  simp only [ProofV1.content, ProofV1.Content.mk.injEq] at h
  obtain ⟨hd, hc, hg, ht, -, -⟩ := h
  cases s with
  | decision => exact congrArg (fun x => x.dump.canon) hd
  | decisionContext =>
    change p.decisionContext.dump.canon = q.decisionContext.dump.canon
    rw [← p.decisionContext.dump_canon, hc, q.decisionContext.dump_canon]
  | governance => exact congrArg (fun x => x.dump.canon) hg
  | determinism => exact congrArg (fun x => x.dump.canon) ht

theorem Section.inputsHash_mem {s : Section} (h : "inputs_hash" ∈ s.fields) : s = .decisionContext := by
  cases s with
  | decisionContext => rfl
  | _ => exact absurd h (by decide)

section

variable {py : Pydantic} {ed : Ed25519} {d e : Json} {p q : ProofV1}

/-- The ledger block as it is written. -/
theorem ledger_of_parse (h : ProofV1.parse py d = some p) :
    ∃ l, d.get? "ledger" = some l ∧
      (∃ v, l.get? "sequence_id" = some v ∧ py.laxInt v = some p.ledger.sequenceId) ∧
      (∃ t, l.get? "previous_hash" = some (.str t) ∧ p.ledger.previousHash.text = lower t) ∧
      (∃ t, l.get? "current_hash" = some (.str t) ∧ p.ledger.currentHash.text = lower t) ∧
      l.get? "timestamp" = some (.str p.ledger.timestamp) := by
  simp only [ProofV1.parse, Option.bind_eq_bind, Option.bind_eq_some_iff] at h
  obtain ⟨-, -, _, -, _, -, _, -, _, -, _, -, l, hl, _, -, hm⟩ := h
  obtain ⟨-, -, -, -, -, rfl, -⟩ := ProofV1.make_eq_some.1 hm
  obtain ⟨v, hv, hl⟩ := Option.bind_eq_some_iff.1 hl
  simp only [Ledger.parse, Option.bind_eq_bind, Option.bind_eq_some_iff, Json.strField_eq_some] at hl
  obtain ⟨_, ⟨w, hw, hn⟩, t, ht, u, hu, _, hts, hm⟩ := hl
  obtain ⟨rfl, hprev, hcur, rfl⟩ := Ledger.make_eq_some.1 hm
  exact ⟨v, hv, ⟨w, hw, hn⟩, ⟨t, ht, HexText.text_of_make hprev⟩, ⟨u, hu, HexText.text_of_make hcur⟩, hts⟩

/-- The signature block as it is written. -/
theorem signature_of_parse (h : ProofV1.parse py d = some p) :
    ∃ s, d.get? "signature" = some s ∧ s.get? "key_id" = some (.str p.signature.keyId) ∧
      (∃ t, s.get? "public_key" = some (.str t) ∧ p.signature.publicKey.text = lower t) ∧
      ∃ t, s.get? "value" = some (.str t) ∧ p.signature.value.text = lower t := by
  simp only [ProofV1.parse, Option.bind_eq_bind, Option.bind_eq_some_iff] at h
  obtain ⟨-, -, _, -, _, -, _, -, _, -, _, -, _, -, s, hs, hm⟩ := h
  obtain ⟨-, -, -, -, -, -, rfl⟩ := ProofV1.make_eq_some.1 hm
  obtain ⟨v, hv, hs⟩ := Option.bind_eq_some_iff.1 hs
  simp only [Signature.parse, Option.bind_eq_bind, Option.bind_eq_some_iff, Json.strField_eq_some] at hs
  obtain ⟨_, -, _, hk, t, ht, u, hu, hm⟩ := hs
  obtain ⟨rfl, hpk, hval⟩ := Signature.make_eq_some.1 hm
  exact ⟨v, hv, hk, ⟨t, ht, HexText.text_of_make hpk⟩, ⟨u, hu, HexText.text_of_make hval⟩⟩

theorem currentHash_of_parse (h : ProofV1.parse py d = some p) :
    ∃ t, currentHashText d = some t ∧ p.ledger.currentHash.text = lower t := by
  obtain ⟨l, hl, -, -, ⟨t, ht, hcur⟩, -⟩ := ledger_of_parse h
  refine ⟨t, ?_, hcur⟩
  rw [currentHashText, hl]
  exact Json.strField_eq_some.2 ht

/-- Where two documents are hashed alike, their sections differ in the three points
at most. -/
theorem sections_same_of_alike (hd : d.wf = true) (he : e.wf = true) (hp : ProofV1.parse py d = some p)
    (hq : ProofV1.parse py e = some q) (hc : p.content = q.content) (h : WrittenAlike d e) : SameSections d e := by
  intro s
  have hrd := ProofV1.readAs hp s
  have hre := ProofV1.readAs hq s
  have hdump := (Json.canon_eq_iff (Section.dump_wf (ProofV1.payload_wf_of_parse py hd hp) s)
    (Section.dump_wf (ProofV1.payload_wf_of_parse py he hq) s) (s.dump_isObj p) (s.dump_isObj q)).1
    (Section.dump_canon_eq hc s)
  refine (Json.canon_eq_iff (Section.written_wf hd s) (Section.written_wf he s) hrd.isObj hre.isObj).2 fun f => ?_
  by_cases hf : f ∈ s.fields
  swap
  · exact h.unknown s f hf
  by_cases hi : f = "inputs_hash"
  · subst hi
    obtain rfl := Section.inputsHash_mem hf
    rw [h.inputsHash]
  -- a known member is there in both documents or in none
  rcases hrd.known f hf hi with ⟨hopt, hnd⟩ | hd'
  · have hpres := h.optional s f hopt
    rw [hnd] at hpres
    have hne : (s.written e).get? f = none := by simpa using hpres
    rw [hnd, hne]
  · rcases hre.known f hf hi with ⟨hopt, hne⟩ | he'
    · have hpres := h.optional s f hopt
      rw [hne, hd', (s.dump_get?_isSome p f).2 hf] at hpres
      cases hpres
    · rw [hd', he']
      exact hdump f

/-- The same sections are written alike. -/
theorem alike_of_sections_same (hd : d.wf = true) (he : e.wf = true) (hp : ProofV1.parse py d = some p)
    (h : SameSections d e) : WrittenAlike d e := by
  have hmember : ∀ (s : Section) f,
      ((s.written d).get? f).map Json.canon = ((s.written e).get? f).map Json.canon := by
    intro s f
    rw [← Json.get?_canon (Section.written_wf hd s), h s, Json.get?_canon (Section.written_wf he s)]
  refine ⟨fun s f _ => hmember s f, fun s f _ => ?_, ?_⟩
  · simpa using congrArg Option.isSome (hmember s f)
  · obtain ⟨t, ht, -⟩ := (ProofV1.readAs hp .decisionContext).inputsHash (by decide)
    have hsame := hmember .decisionContext "inputs_hash"
    rw [ht, Option.map_some, Json.canon_str] at hsame
    obtain ⟨w, hw, hwt⟩ := Option.map_eq_some_iff.1 hsame.symm
    rw [ht, hw, Json.canon_eq_str.1 hwt]

end

/-! ### Documents that are written in full -/

/-- A document in which every section is written as it is hashed. -/
structure InFull (d : Json) : Prop where
  /-- There is no member that a model does not know. -/
  unknown : ∀ (s : Section) (f : String), f ∉ s.fields → (s.written d).get? f = none
  /-- The members with a default are written. -/
  optional : ∀ s : Section, ∀ f ∈ s.optional, ((s.written d).get? f).isSome = true
  /-- `inputs_hash` is written in lower case. -/
  inputsHash : ∃ t, (Section.decisionContext.written d).get? "inputs_hash" = some (.str t) ∧ lower t = t

theorem Section.optional_subset {s : Section} {f : String} (h : f ∈ s.optional) : f ∈ s.fields := by
  revert f
  cases s <;> decide

/-- **The sections are hashed as written** exactly if the document is written in full. -/
theorem inFull_iff {py : Pydantic} {d : Json} {p : ProofV1} (hd : d.wf = true) (hp : ProofV1.parse py d = some p) :
    InFull d ↔ ∀ s : Section, (s.written d).canon = (s.dump p).canon := by
  have hmembers : ∀ s : Section, (s.written d).canon = (s.dump p).canon ↔
      ∀ f, ((s.written d).get? f).map Json.canon = ((s.dump p).get? f).map Json.canon := fun s =>
    Json.canon_eq_iff (Section.written_wf hd s) (Section.dump_wf (ProofV1.payload_wf_of_parse py hd hp) s)
      (ProofV1.readAs hp s).isObj (s.dump_isObj p)
  have hnone : ∀ (s : Section) f, f ∉ s.fields → (s.dump p).get? f = none := by
    intro s f hf
    rw [← Option.not_isSome_iff_eq_none]
    exact fun h => hf ((s.dump_get?_isSome p f).1 h)
  constructor
  · intro h s
    refine (hmembers s).2 fun f => ?_
    by_cases hf : f ∈ s.fields
    swap
    · rw [h.unknown s f hf, hnone s f hf]
    by_cases hi : f = "inputs_hash"
    · subst hi
      obtain ⟨t, ht, hlow⟩ := (ProofV1.readAs hp s).inputsHash hf
      obtain rfl := Section.inputsHash_mem hf
      obtain ⟨u, hu, hulow⟩ := h.inputsHash
      obtain rfl : t = u := Json.str.inj (Option.some.inj (ht.symm.trans hu))
      rw [ht, hlow, hulow]
    · rcases (ProofV1.readAs hp s).known f hf hi with ⟨hopt, hn⟩ | heq
      · have hpres := h.optional s f hopt
        rw [hn] at hpres
        cases hpres
      · rw [heq]
  · intro h
    refine ⟨fun s f hf => ?_, fun s f hf => ?_, ?_⟩
    · have hmem := (hmembers s).1 (h s) f
      rw [hnone s f hf] at hmem
      simpa using hmem
    · have hmem := congrArg Option.isSome ((hmembers s).1 (h s) f)
      rw [Option.isSome_map, Option.isSome_map, (s.dump_get?_isSome p f).2 (Section.optional_subset hf)] at hmem
      exact hmem
    · obtain ⟨t, ht, hlow⟩ := (ProofV1.readAs hp .decisionContext).inputsHash (by decide)
      have hmem := (hmembers .decisionContext).1 (h _) "inputs_hash"
      rw [ht, hlow] at hmem
      exact ⟨t, ht, (Json.str.inj (Option.some.inj hmem)).symm⟩

/-! Two loans with one hash. -/

theorem loanDocument_valid {p : ProofV1} (hg : Genuine loanEd25519 p) (hprev : p.ledger.previousHash.text = genesisHash) :
    (verifyProof plainPydantic loanEd25519 "2026-03-01T00:00:00Z" p.dump none none).valid = true := by
  refine (verifyProof_valid_iff _ _).2 ⟨_, ProofV1.parse_dump _ _, hg, ?_, fun _ => hprev, ?_⟩
  · rintro _ ⟨⟩
  · rintro _ ⟨⟩

theorem currentHashText_dump (p : ProofV1) : currentHashText p.dump = some p.ledger.currentHash.text := rfl

/-- The sections of the loan. -/
def loanSection : Section → Json
  | .decision => loanDecision.dump
  | .decisionContext => loanContext.dump
  | .governance => loanGovernance.dump
  | .determinism => Determinism.dump ⟨.strictDeterministic, none, none, unseeded_fields⟩

theorem loanProofs_currentHash : loanProofs.1.ledger.currentHash.text = sha256Hex (dumps loanPayload) ∧
    loanProofs.2.ledger.currentHash.text = sha256Hex (dumps loanPayload) := ⟨rfl, rfl⟩

/-- A document of the loan with these members added to its decision. -/
def annotatedLoan (more : List (String × Json)) : Json :=
  let p := loanProofs.1
  .obj [("type", .str proofVersion), ("instance_id", .str p.instanceId),
    ("decision", .obj ([("from_state", .str "pending"), ("to_state", .str "approved")] ++ more)),
    ("decision_context", p.decisionContext.dump), ("governance", p.governance.dump),
    ("determinism", p.determinism.dump), ("ledger", p.ledger.dump), ("signature", p.signature.dump)]

/-- A document with the sections of a proof, its decision written some other way. -/
theorem parse_of_sections {py : Pydantic} {p : ProofV1} {d j : Json} (hdecision : Decision.parse d = some p.decision)
    (hj : j = .obj [("type", .str proofVersion), ("instance_id", .str p.instanceId), ("decision", d),
      ("decision_context", p.decisionContext.dump), ("governance", p.governance.dump),
      ("determinism", p.determinism.dump), ("ledger", p.ledger.dump), ("signature", p.signature.dump)]) :
    ProofV1.parse py j = some p := by
  have hd : j.modelField Decision.parse "decision" = some p.decision := by
    rw [hj]
    exact hdecision
  have hc : j.modelField DecisionContext.parse "decision_context" = some p.decisionContext := by
    rw [hj]
    exact p.decisionContext.parse_dump
  have hg : j.modelField Governance.parse "governance" = some p.governance := by
    rw [hj]
    exact p.governance.parse_dump
  have ht : j.modelField Determinism.parse "determinism" = some p.determinism := by
    rw [hj]
    exact p.determinism.parse_dump
  have hl : j.modelField (Ledger.parse py) "ledger" = some p.ledger := by
    rw [hj]
    exact p.ledger.parse_dump py
  have hs : j.modelField Signature.parse "signature" = some p.signature := by
    rw [hj]
    exact p.signature.parse_dump
  have hi : j.strField "instance_id" = some p.instanceId := by rw [hj]; rfl
  have hty : ProofV1.typeField j = some () := by rw [hj]; rfl
  rw [ProofV1.parse, hty, hi, hd, hc, hg, ht, hl, hs]
  exact ProofV1.make_eq_some.2 ⟨rfl, rfl, rfl, rfl, rfl, rfl, rfl⟩

/-- It is read as the loan. -/
theorem parse_annotatedLoan (py : Pydantic) (more : List (String × Json)) :
    ProofV1.parse py (annotatedLoan more) = some loanProofs.1 := by
  have hdecision : Decision.parse (.obj ([("from_state", .str "pending"), ("to_state", .str "approved")] ++ more)) =
      some loanDecision := rfl
  have hloan : loanProofs.1.decision = loanDecision := rfl
  rw [← hloan] at hdecision
  exact parse_of_sections hdecision rfl

theorem annotatedLoan_valid (more : List (String × Json)) :
    (verifyProof plainPydantic loanEd25519 "2026-03-01T00:00:00Z" (annotatedLoan more) none none).valid = true := by
  refine (verifyProof_valid_iff _ _).2 ⟨_, parse_annotatedLoan _ more, loanProofs_fst loanProof_genuine, ?_, fun _ => rfl, ?_⟩
  · rintro _ ⟨⟩
  · rintro _ ⟨⟩

theorem currentHashText_annotatedLoan (more : List (String × Json)) :
    currentHashText (annotatedLoan more) = some loanProofs.1.ledger.currentHash.text := rfl

end ProvableAi
