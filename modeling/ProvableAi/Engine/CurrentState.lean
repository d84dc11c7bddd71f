/-
# The current state of an instance

What the table `instances` says after a run of one engine.

Two statements write a row.  That of `create_instance` leaves out `created_at`,
which is `NOT NULL`, so its `INSERT OR IGNORE` ignores the row it was to add.
That of `_ensure_instance` adds one with the first decision: under the version of
the policy, where the protocol's hash belongs, and in the state the decision leads
to.  No statement updates a row's state.  The rows of a run are therefore those of
the first decisions (`InstanceRows`), and `current_state_iff` says when that is
what a created instance should have.
-/

import ProvableAi.Engine.Runs

namespace ProvableAi

/-- A spec's hash. -/
def specHash (spec : List (String × Json)) : String := sha256Hex (dumps (.obj spec))

/-- What the calls of a run say of protocols and instances: the spec compiled last, and the spec that each instance
was created under. -/
structure Lifecycle where
  latest : Option (List (String × Json))
  created : List (String × List (String × Json))

namespace Lifecycle

/-- One more call.  An instance is created once, under a spec with an initial state. -/
def next (t : Lifecycle) : Op → Lifecycle
  | .compile _ spec => { t with latest := some spec }
  | .createInstance i =>
    match t.latest with
    | none => t
    | some spec =>
      if i ∈ t.created.map Prod.fst ∨ "initial_state" ∉ spec.map Prod.fst then t
      else { t with created := (i, spec) :: t.created }
  | _ => t

/-- The calls of a run. -/
def of (ops : List Op) : Lifecycle := ops.foldl next ⟨none, []⟩

/-- The initial state of a spec. -/
def initialState (spec : List (String × Json)) : Json := (spec.lookup "initial_state").getD .null

end Lifecycle

/-- The engine keeps in memory what the calls said. -/
structure Engine.Follows (s : Engine) (t : Lifecycle) : Prop where
  active : s.active = t.latest.map specHash
  spec : ∀ spec, t.latest = some spec → s.protocols.lookup (specHash spec) = some spec
  instances : s.instances = t.created.map fun c => (c.1, Lifecycle.initialState c.2, specHash c.2)

/-- The state of an instance by the ledger: that of the latest row, the initial one where there is none. -/
def ledgerState (db : Db) (i : String) (spec : List (String × Json)) : Json :=
  match lastRow db.ledger defaultTenant i with
  | none => Lifecycle.initialState spec
  | some r => .str r.toState

/-- **The recorded current state.**  Every instance that the engine created has a row, with the hash of the protocol
that it was created under and with its state. -/
def RowsRecord (s : Engine) (t : Lifecycle) : Prop :=
  ∀ i ∈ s.instances.map Prod.fst, ∃ spec, t.created.lookup i = some spec ∧ ∃ row ∈ s.db.instances,
    row.instanceId = i ∧ row.protocolHash = specHash spec ∧ .str row.currentState = ledgerState s.db i spec

/-- Every created instance has decisions, the first one under a policy version that is the protocol's hash, and the
last one into the state of the first. -/
def Staying (acc : List (DecisionArgs × ProofV1)) (t : Lifecycle) : Prop :=
  ∀ i spec, t.created.lookup i = some spec → ∃ first last, (onInstance i acc).head? = some first ∧
    (onInstance i acc).getLast? = some last ∧ first.1.policyVersion = specHash spec ∧
      last.1.toState = first.1.toState

variable {signer : Signer} {acc : List (DecisionArgs × ProofV1)}

/-! ### The rows of a run -/

/-- The rows are those of the first decisions. -/
structure InstanceRows (instances : List InstanceRow) (acc : List (DecisionArgs × ProofV1)) : Prop where
  of_row : ∀ row ∈ instances, row.tenantId = defaultTenant ∧ ∃ first,
    (onInstance row.instanceId acc).head? = some first ∧ row.protocolHash = first.1.policyVersion ∧
      row.currentState = first.1.toState
  exists_row : ∀ i, onInstance i acc ≠ [] → ∃ row ∈ instances, row.instanceId = i

theorem onInstance_append (i : String) (xs ys : List (DecisionArgs × ProofV1)) :
    onInstance i (xs ++ ys) = onInstance i xs ++ onInstance i ys := List.filter_append ..

theorem onInstance_self (ap : DecisionArgs × ProofV1) : onInstance ap.1.instanceId [ap] = [ap] := by
  simp [onInstance]

theorem onInstance_other {ap : DecisionArgs × ProofV1} {i : String} (h : ap.1.instanceId ≠ i) : onInstance i [ap] = [] := by
  simp [onInstance, h]

namespace InstanceRows

variable {instances : List InstanceRow}

theorem fresh : InstanceRows [] [] := ⟨by simp, by simp [onInstance]⟩

/-- Freezing an instance changes nothing of this. -/
theorem freeze (h : InstanceRows instances acc) (i t : String) :
    InstanceRows (instances.map fun r => if r.instanceId = i ∧ r.tenantId = t then { r with frozen := true } else r)
      acc := by
  refine ⟨fun row hrow => ?_, fun j hj => ?_⟩
  · obtain ⟨r, hr, rfl⟩ := List.mem_map.1 hrow
    split
    · exact h.of_row r hr
    · exact h.of_row r hr
  · obtain ⟨r, hr, hi⟩ := h.exists_row j hj
    refine ⟨_, List.mem_map_of_mem hr, ?_⟩
    split
    · exact hi
    · exact hi

/-- A further decision finds the row, the first one adds it. -/
theorem ensure (h : InstanceRows instances acc) {a : DecisionArgs} {p : ProofV1} (now : String) :
    InstanceRows (ensureInstance instances a.instanceId a.policyVersion a.toState defaultTenant now) (acc ++ [(a, p)]) := by
  have hold : ∀ row ∈ instances, row.tenantId = defaultTenant ∧ ∃ first,
      (onInstance row.instanceId (acc ++ [(a, p)])).head? = some first ∧ row.protocolHash = first.1.policyVersion ∧
        row.currentState = first.1.toState := by
    intro row hrow
    obtain ⟨ht, first, hfirst, hrest⟩ := h.of_row row hrow
    refine ⟨ht, first, ?_, hrest⟩
    rw [onInstance_append, List.head?_append, hfirst, Option.some_or]
  by_cases hrow : ∃ row ∈ instances, row.instanceId = a.instanceId
  · obtain ⟨row, hmem, hi⟩ := hrow
    have hhas : hasInstance instances defaultTenant a.instanceId = true := by
      rw [hasInstance, List.any_eq_true]
      exact ⟨row, hmem, by simp [(h.of_row row hmem).1, hi]⟩
    rw [ensureInstance, if_pos hhas]
    refine ⟨hold, fun j hj => ?_⟩
    by_cases hij : a.instanceId = j
    · exact ⟨row, hmem, hi.trans hij⟩
    · rw [onInstance_append, onInstance_other (show (a, p).1.instanceId ≠ j from hij), List.append_nil] at hj
      exact h.exists_row j hj
  · have hnone : instances.any (fun r => r.instanceId = a.instanceId) = false := by
      rw [List.any_eq_false]
      exact fun r hr => by simpa using fun hi => hrow ⟨r, hr, hi⟩
    have hhas : hasInstance instances defaultTenant a.instanceId = false := by
      rw [hasInstance, List.any_eq_false]
      exact fun r hr => by simpa using fun _ hi => hrow ⟨r, hr, hi⟩
    have hnew : onInstance a.instanceId acc = [] := by
      by_contra hne
      exact hrow (h.exists_row _ hne)
    rw [ensureInstance, hhas, insertInstance, hnone]
    refine ⟨fun row hmem => ?_, fun j hj => ?_⟩
    · rcases List.mem_append.1 hmem with hmem | hmem
      · exact hold row hmem
      · obtain rfl := List.mem_singleton.1 hmem
        refine ⟨rfl, (a, p), ?_, rfl, rfl⟩
        rw [onInstance_append, hnew, onInstance_self (a, p)]
        rfl
    · by_cases hij : a.instanceId = j
      · exact ⟨_, List.mem_append_right _ (List.mem_singleton.2 rfl), hij⟩
      · rw [onInstance_append, onInstance_other (show (a, p).1.instanceId ≠ j from hij), List.append_nil] at hj
        obtain ⟨row, hmem, hi⟩ := h.exists_row j hj
        exact ⟨row, List.mem_append_left _ hmem, hi⟩

/-- **One call** keeps the rows. -/
theorem step {s : Engine} (hinv : Inv signer s.db acc) (h : InstanceRows s.db.instances acc) (op : Op) :
    InstanceRows (s.step signer op).2.db.instances (acc ++ recorded [⟨op, (s.step signer op).1, s.sent op⟩]) := by
  have hsame : ∀ {db' : Db} {o : Outcome}, InstanceRows db'.instances acc → (∀ p, o ≠ .proof p) →
      InstanceRows db'.instances (acc ++ recorded [⟨op, o, s.sent op⟩]) := by
    intro db' o hrows ho
    have hnil : recorded [⟨op, o, s.sent op⟩] = [] := by
      cases o with
      | proof p => exact absurd rfl (ho p)
      | _ => cases op <;> rfl
    rwa [hnil, List.append_nil]
  cases op with
  | addApprovedModel now v n => exact hsame h (by simp [Engine.step])
  | addApprovedAgent now v n => exact hsame h (by simp [Engine.step])
  | addApprovedPolicy now v n => exact hsame h (by simp [Engine.step])
  | deactivatePolicy v => exact hsame h (by simp [Engine.step])
  | compile now spec =>
    refine hsame ?_ (by simp [Engine.step, Engine.compile])
    simp only [Engine.step, Engine.compile, Db.registerProtocol]
    split <;> exact h
  | createInstance i =>
    rw [Engine.step, Engine.createInstance]
    split
    · exact hsame h (by simp)
    · split
      · exact hsame h (by simp)
      · split
        · exact hsame h (by simp)
        · exact hsame h (by simp)
  | recordDecision env a =>
    obtain ⟨e, he⟩ | ⟨p, hp, hafter, -⟩ := hinv.record_cases env a
    · rw [Engine.step, he]
      exact hsame h (by simp)
    · have hb := hafter.built (a, p) (by simp)
      have hpolicy : p.governance.policyVersion = a.policyVersion := hb.carries.policyVersion
      have hstate : p.decision.toState = a.toState := hb.carries.toState
      have hinst : p.toDict.instanceId = a.instanceId := hb.instanceId
      rw [Engine.step, hp]
      have hrows := h.ensure (a := a) (p := p) env.now.text
      rw [← hinst, ← hpolicy, ← hstate] at hrows
      exact hrows
  | exportProof env i =>
    rw [Engine.step, hinv.exportProof_eq]
    cases env.signFault with
    | some e => exact hsame h (by simp)
    | none => exact hsame (h.freeze i defaultTenant) (by simp)

theorem run {s : Engine} (hinv : Inv signer s.db acc) (h : InstanceRows s.db.instances acc) (ops : List Op) :
    InstanceRows (s.run signer ops).1.db.instances (acc ++ recorded (s.run signer ops).2) := by
  induction ops generalizing s acc with
  | nil => simpa [Engine.run, recorded] using h
  | cons op ops ih =>
    have hs := ih (Engine.step_inv hinv op) (h.step hinv op)
    rw [List.append_assoc, ← recorded_append] at hs
    exact hs

end InstanceRows

/-! ### The memory of a run -/

/-- **One call** keeps the memory. -/
theorem Engine.Follows.step {s : Engine} {t : Lifecycle} (h : s.Follows t) (op : Op) :
    (s.step signer op).2.Follows (t.next op) := by
  cases op with
  | compile now spec =>
    refine ⟨rfl, fun spec' hspec => ?_, h.instances⟩
    obtain rfl := Option.some.inj hspec
    simp only [Engine.step, compile]
    exact List.lookup_cons_self
  | createInstance i =>
    have hkeys : (s.instances.lookup i).isSome = true ↔ i ∈ t.created.map Prod.fst := by
      rw [Json.lookup_isSome_iff, h.instances, List.map_map]
      rfl
    rw [Engine.step, createInstance, Lifecycle.next, h.active]
    cases hl : t.latest with
    | none => exact h
    | some spec =>
      rw [Option.map_some]
      by_cases hi : i ∈ t.created.map Prod.fst
      · simp only [if_pos (hkeys.2 hi), if_pos (Or.inl hi)]
        exact h
      · simp only [if_neg fun hs => hi (hkeys.1 hs), h.spec spec hl, Option.getD_some]
        cases hs : spec.lookup "initial_state" with
        | none =>
          have hno : "initial_state" ∉ spec.map Prod.fst := fun hmem => by
            rw [← Json.lookup_isSome_iff, hs] at hmem
            cases hmem
          simp only [if_pos (Or.inr hno)]
          exact h
        | some state =>
          have hyes : "initial_state" ∈ spec.map Prod.fst := by
            rw [← Json.lookup_isSome_iff, hs]
            rfl
          simp only [if_neg (not_or.2 ⟨hi, not_not.2 hyes⟩)]
          refine ⟨?_, ?_, ?_⟩
          · simp
          · exact fun spec' hspec' => h.spec spec' (hl.trans hspec')
          · simp [h.instances, Lifecycle.initialState, hs]
  | recordDecision env a =>
    rw [Engine.step]
    split <;> exact ⟨h.active, h.spec, h.instances⟩
  | exportProof env i =>
    rw [Engine.step]
    split <;> exact ⟨h.active, h.spec, h.instances⟩
  | _ => exact ⟨h.active, h.spec, h.instances⟩

/-- What the engine keeps in memory after a run. -/
theorem follows_run (signer : Signer) (ops : List Op) : (Engine.fresh.run signer ops).1.Follows (.of ops) := by
  have hrun : ∀ (ops : List Op) {s : Engine} {t : Lifecycle}, s.Follows t →
      (s.run signer ops).1.Follows (ops.foldl Lifecycle.next t) := by
    intro ops
    induction ops with
    | nil => exact fun h => h
    | cons op ops ih => exact fun h => ih (h.step op)
  exact hrun ops ⟨rfl, by simp, rfl⟩

/-! ### When the rows are right -/

/-- The state of an instance with decisions is that of the last one. -/
theorem Inv.ledgerState_eq {db : Db} (h : Inv signer db acc) {i : String} {last : DecisionArgs × ProofV1}
    (hlast : (onInstance i acc).getLast? = some last) (spec : List (String × Json)) :
    ledgerState db i spec = .str last.1.toState := by
  have hstate : last.2.decision.toState = last.1.toState :=
    (h.built last (List.mem_filter.1 (List.mem_of_getLast? hlast)).1).carries.toState
  rw [ledgerState, lastRow_eq h.chained, h.rowsOf_eq, List.getLast?_map, List.getLast?_map, hlast]
  exact congrArg Json.str hstate

/-- The created instances are those of the calls. -/
theorem Engine.Follows.mem_instances {s : Engine} {t : Lifecycle} (h : s.Follows t) {i : String} :
    i ∈ s.instances.map Prod.fst ↔ ∃ spec, t.created.lookup i = some spec := by
  rw [h.instances, List.map_map, ← Option.isSome_iff_exists, Json.lookup_isSome_iff]
  rfl

/-- The row of one instance. -/
theorem row_iff {db : Db} (hinv : Inv signer db acc) (h : InstanceRows db.instances acc) (i : String)
    (spec : List (String × Json)) :
    (∃ row ∈ db.instances, row.instanceId = i ∧ row.protocolHash = specHash spec ∧
      .str row.currentState = ledgerState db i spec) ↔
    ∃ first last, (onInstance i acc).head? = some first ∧ (onInstance i acc).getLast? = some last ∧
      first.1.policyVersion = specHash spec ∧ last.1.toState = first.1.toState := by
  constructor
  · rintro ⟨row, hmem, hi, hhash, hstate⟩
    obtain ⟨-, first, hfirst, hpolicy, hto⟩ := h.of_row row hmem
    rw [hi] at hfirst
    have hne : onInstance i acc ≠ [] := by
      intro hnil
      rw [hnil] at hfirst
      cases hfirst
    have hlast := List.getLast?_eq_getLast_of_ne_nil hne
    rw [hinv.ledgerState_eq hlast, hto] at hstate
    exact ⟨first, _, hfirst, hlast, hpolicy.symm.trans hhash, (Json.str.inj hstate).symm⟩
  · rintro ⟨first, last, hfirst, hlast, hpolicy, hto⟩
    obtain ⟨row, hmem, hi⟩ := h.exists_row i (by
      intro hnil
      rw [hnil] at hfirst
      cases hfirst)
    obtain ⟨-, first', hfirst', hpolicy', hto'⟩ := h.of_row row hmem
    rw [hi, hfirst] at hfirst'
    obtain rfl := Option.some.inj hfirst'
    refine ⟨row, hmem, hi, hpolicy'.trans hpolicy, ?_⟩
    rw [hinv.ledgerState_eq hlast, hto', hto]

/-- After a run the rows are right exactly if the instances stay where their first decision led. -/
theorem rowsRecord_iff {s : Engine} {t : Lifecycle} (hinv : Inv signer s.db acc) (h : InstanceRows s.db.instances acc)
    (hfollows : s.Follows t) : RowsRecord s t ↔ Staying acc t := by
  constructor
  · intro hrows i spec hspec
    obtain ⟨spec', hspec', hrow⟩ := hrows i (hfollows.mem_instances.2 ⟨spec, hspec⟩)
    obtain rfl := Option.some.inj (hspec.symm.trans hspec')
    exact (row_iff hinv h i spec).1 hrow
  · intro hstay i hi
    obtain ⟨spec, hspec⟩ := hfollows.mem_instances.1 hi
    exact ⟨spec, hspec, (row_iff hinv h i spec).2 (hstay i spec hspec)⟩

theorem instanceRows_run (signer : Signer) (ops : List Op) :
    InstanceRows (Engine.fresh.run signer ops).1.db.instances (recorded (Engine.fresh.run signer ops).2) := by
  have hinv : Inv signer Engine.fresh.db [] := Inv.fresh
  simpa using InstanceRows.run hinv InstanceRows.fresh ops

/-- **The recorded current state is right after every call of a run exactly if, after every call, each created instance
has decisions, the first under a policy version that is the hash of its protocol, and the latest into the state the
first led to.** -/
theorem current_state_iff (signer : Signer) (ops : List Op) :
    (∀ before, before <+: ops → RowsRecord (Engine.fresh.run signer before).1 (.of before)) ↔
      ∀ before, before <+: ops → Staying (recorded (Engine.fresh.run signer before).2) (.of before) :=
  forall₂_congr fun before _ =>
    rowsRecord_iff (inv_run signer before) (instanceRows_run signer before) (follows_run signer before)

/-- A protocol is compiled and an instance created under it. -/
def createdLoan : List Op :=
  [.compile "2026-01-01T00:00:00Z" [("initial_state", .str "pending")], .createInstance "loan_1"]

/-- The table has no row for it. -/
theorem created_loan_missing : ¬ ∀ before, before <+: createdLoan →
    RowsRecord (Engine.fresh.run loanSigner before).1 (.of before) := by
  intro h
  have hrows := h createdLoan (List.prefix_refl _)
  rw [rowsRecord_iff (inv_run loanSigner createdLoan) (instanceRows_run loanSigner createdLoan)
    (follows_run loanSigner createdLoan)] at hrows
  obtain ⟨first, -, hfirst, -⟩ := hrows "loan_1" [("initial_state", .str "pending")]
    (by simp [createdLoan, Lifecycle.of, Lifecycle.next])
  have hnone : recorded (Engine.fresh.run loanSigner createdLoan).2 = [] := rfl
  rw [hnone] at hfirst
  cases hfirst

end ProvableAi
