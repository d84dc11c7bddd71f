/-
# The policy registry

`approved_policies` keeps a name and a version in one text: `add_approved_policy`
joins them with a colon, or stores the version alone where the name is empty or
the same, and `get_approved_policies` splits at the first colon.  Splitting
undoes joining on the pairs whose first text has no colon (`keyPair_joinKey_iff`),
and joining again what was split changes nothing more (`keyPair_idempotent`), so
the returned pairs are the added ones exactly if each single pair comes back
(`roundTrip_iff`).

Deactivation is by the stored text.  `deactivate_policy` and `is_policy_active`
ask for the version alone, `get_approved_policies` for the version of any active
row, also of one under a name.  The two agree at every point of a run exactly if
a version is given a name only while it is active by itself and is never
deactivated once it has a name (`deactivation_iff`).
-/

import ProvableAi.Engine.Record

namespace ProvableAi
namespace Policies

/-! ### Names and versions in one text -/

/-- The name and the version `get_approved_policies` reads of a stored text. -/
def keyPair (key : String) : String × String :=
  match key.toList.dropWhile (· ≠ ':') with
  | [] => (key, key)
  | _ :: v => (String.ofList (key.toList.takeWhile (· ≠ ':')), String.ofList v)

/-- The text that is stored of a name and a version. -/
def joinKey (name version : String) : String := if name ≠ version then name ++ ":" ++ version else version

/-- `name or version`. -/
def nameOr (name version : String) : String := if name = "" then version else name

theorem policyKey_eq (version name : String) : Db.policyKey version name = joinKey (nameOr name version) version := by
  rw [Db.policyKey, joinKey, nameOr]
  by_cases hn : name = ""
  · simp [hn]
  · by_cases hv : name = version
    · simp [hv]
    · simp [hn, hv]

theorem keyPair_join {n : String} (v : String) (h : ':' ∉ n.toList) : keyPair (n ++ ":" ++ v) = (n, v) := by
  have hl : (n ++ ":" ++ v).toList = n.toList ++ ':' :: v.toList := by simp
  have hd : ∀ cs : List Char, ':' ∉ cs → (cs ++ ':' :: v.toList).dropWhile (· ≠ ':') = ':' :: v.toList := by
    intro cs hcs
    rw [List.dropWhile_append_of_pos fun c hc => ?_]
    · rfl
    · exact decide_eq_true fun he => hcs (he ▸ hc)
  have ht : ∀ cs : List Char, ':' ∉ cs → (cs ++ ':' :: v.toList).takeWhile (· ≠ ':') = cs := by
    intro cs hcs
    rw [List.takeWhile_append_of_pos fun c hc => ?_]
    · simp
    · exact decide_eq_true fun he => hcs (he ▸ hc)
  rw [keyPair, hl, hd _ h, ht _ h, String.ofList_toList]
  exact congrArg (Prod.mk n) (String.ofList_toList (s := v))

theorem keyPair_plain {key : String} (h : ':' ∉ key.toList) : keyPair key = (key, key) := by
  have hd : key.toList.dropWhile (· ≠ ':') = [] :=
    List.dropWhile_eq_nil_iff.2 fun c hc => decide_eq_true fun he => h (he ▸ hc)
  rw [keyPair, hd]

/-- A stored text is split at its first colon, if it has one. -/
theorem keyPair_cases (key : String) :
    (':' ∉ key.toList ∧ keyPair key = (key, key)) ∨
      ∃ n v, ':' ∉ n.toList ∧ key = n ++ ":" ++ v ∧ keyPair key = (n, v) := by
  by_cases h : ':' ∈ key.toList
  · obtain ⟨n, v, hk, hn⟩ := List.eq_append_cons_of_mem h
    have hkey : key = String.ofList n ++ ":" ++ String.ofList v := by
      rw [← String.ofList_toList (s := key), hk]
      simp [String.ofList_append, ← String.toList_inj]
    have hn : ':' ∉ (String.ofList n).toList := by rwa [String.toList_ofList]
    refine .inr ⟨String.ofList n, String.ofList v, hn, hkey, ?_⟩
    rw [hkey]
    exact keyPair_join _ hn
  · exact .inl ⟨h, keyPair_plain h⟩

/-- **Which pairs come back**: those whose first text has no colon, the first being
the version where it stands alone. -/
theorem keyPair_joinKey_iff {n v : String} : keyPair (joinKey n v) = (n, v) ↔ ':' ∉ n.toList := by
  by_cases hnv : n = v
  · subst hnv
    rw [joinKey, if_neg (by simp)]
    refine ⟨fun h => ?_, keyPair_plain⟩
    obtain ⟨hp, -⟩ | ⟨m, w, hm, -, hk⟩ := keyPair_cases n
    · exact hp
    · rw [hk] at h
      exact (Prod.mk.inj h).1 ▸ hm
  · rw [joinKey, if_pos hnv]
    refine ⟨fun h => ?_, keyPair_join v⟩
    obtain ⟨hp, hk⟩ | ⟨m, w, hm, -, hk⟩ := keyPair_cases (n ++ ":" ++ v)
    · exact absurd (by simp) hp
    · rw [hk] at h
      exact (Prod.mk.inj h).1 ▸ hm

/-- What was split once is split the same way again. -/
theorem keyPair_idempotent (key : String) :
    keyPair (joinKey (keyPair key).1 (keyPair key).2) = keyPair key := by
  obtain ⟨hp, hk⟩ | ⟨n, v, hn, -, hk⟩ := keyPair_cases key
  · rw [hk]
    exact keyPair_joinKey_iff.2 hp
  · rw [hk]
    exact keyPair_joinKey_iff.2 hn

/-! ### The registry -/

/-- `get_approved_policies`, each pair a name and a version. -/
def getApprovedPolicies (db : Db) : List (String × String) :=
  (db.approvedPolicies.filter ApprovedPolicy.active).map fun r => keyPair r.policyVersion

theorem keyPair_snd (key : String) : (keyPair key).2 = Db.keyVersion key := by
  rw [keyPair, Db.keyVersion]
  cases key.toList.dropWhile (· ≠ ':') <;> rfl

/-- The versions the governance check looks through are those of the pairs. -/
theorem policyVersions_eq (db : Db) : db.policyVersions = (getApprovedPolicies db).map Prod.snd := by
  rw [Db.policyVersions, getApprovedPolicies, List.map_map]
  exact List.map_congr_left fun r _ => (keyPair_snd r.policyVersion).symm

/-- An active row has the text. -/
def ActiveKey (db : Db) (key : String) : Prop := ∃ r ∈ db.approvedPolicies, r.active = true ∧ r.policyVersion = key

theorem mem_getApprovedPolicies {db : Db} {pr : String × String} :
    pr ∈ getApprovedPolicies db ↔ ∃ key, ActiveKey db key ∧ keyPair key = pr := by
  simp only [getApprovedPolicies, List.mem_map, List.mem_filter]
  constructor
  · rintro ⟨r, ⟨hr, ha⟩, rfl⟩
    exact ⟨r.policyVersion, ⟨r, hr, ha, rfl⟩, rfl⟩
  · rintro ⟨key, ⟨r, hr, ha, rfl⟩, rfl⟩
    exact ⟨r, ⟨hr, ha⟩, rfl⟩

theorem activeKey_add {db : Db} {now v n key : String} :
    ActiveKey (db.addApprovedPolicy now v n) key ↔ key = Db.policyKey v n ∨ ActiveKey db key := by
  simp only [ActiveKey, Db.addApprovedPolicy, List.mem_append, List.mem_singleton, List.mem_filter,
    decide_eq_true_eq]
  constructor
  · rintro ⟨r, ⟨hr, -⟩ | rfl, ha, rfl⟩
    · exact .inr ⟨r, hr, ha, rfl⟩
    · exact .inl rfl
  · rintro (rfl | ⟨r, hr, ha, rfl⟩)
    · exact ⟨_, .inr rfl, rfl, rfl⟩
    · by_cases hv : r.policyVersion = Db.policyKey v n
      · exact ⟨_, .inr rfl, rfl, hv.symm⟩
      · exact ⟨r, .inl ⟨hr, hv⟩, ha, rfl⟩

theorem activeKey_deactivate {db : Db} {v key : String} :
    ActiveKey (db.deactivatePolicy v) key ↔ key ≠ v ∧ ActiveKey db key := by
  simp only [ActiveKey, Db.deactivatePolicy, List.mem_map]
  constructor
  · rintro ⟨_, ⟨r, hr, rfl⟩, ha, hk⟩
    split_ifs at ha hk with hv
    · subst hk
      exact ⟨hv, r, hr, ha, rfl⟩
  · rintro ⟨hne, r, hr, ha, rfl⟩
    exact ⟨r, ⟨r, hr, if_neg hne⟩, ha, rfl⟩

/-- A database with its policies removed. -/
def noPolicies (db : Db) : Db := { db with approvedPolicies := [] }

/-- A call of `add_approved_policy`. -/
structure Added where
  now : String
  version : String
  name : String

/-- The name and the version that were added. -/
def Added.pair (c : Added) : String × String := (nameOr c.name c.version, c.version)

/-- The database after calls of `add_approved_policy`. -/
def addAll (db : Db) (calls : List Added) : Db :=
  calls.foldl (fun db c => db.addApprovedPolicy c.now c.version c.name) db

theorem addAll_concat (db : Db) (calls : List Added) (c : Added) :
    addAll db (calls ++ [c]) = (addAll db calls).addApprovedPolicy c.now c.version c.name := by
  rw [addAll, List.foldl_append]
  rfl

theorem activeKey_addAll {db : Db} {calls : List Added} {key : String} :
    ActiveKey (addAll (noPolicies db) calls) key ↔ ∃ c ∈ calls, Db.policyKey c.version c.name = key := by
  induction calls using List.reverseRecOn with
  | nil => simp [addAll, noPolicies, ActiveKey]
  | append_singleton calls c ih =>
    rw [addAll_concat, activeKey_add, ih]
    constructor
    · rintro (rfl | ⟨c', hc', rfl⟩)
      · exact ⟨c, by simp, rfl⟩
      · exact ⟨c', by simp [hc'], rfl⟩
    · rintro ⟨c', hc', rfl⟩
      rcases List.mem_append.1 hc' with hc' | hc'
      · exact .inr ⟨c', hc', rfl⟩
      · obtain rfl := List.mem_singleton.1 hc'
        exact .inl rfl

/-- Adding policies approves no model and no agent. -/
theorem addAll_versions (db : Db) (calls : List Added) :
    (addAll (noPolicies db) calls).modelVersions = db.modelVersions ∧
      (addAll (noPolicies db) calls).agentVersions = db.agentVersions := by
  induction calls using List.reverseRecOn with
  | nil => exact ⟨rfl, rfl⟩
  | append_singleton calls c ih =>
    rw [addAll_concat]
    exact ih

/-- **The round trip of the registry.**  After any calls that add policies, the
pairs that are returned are the pairs that were added and the check of a decision
accepts the added versions, if and only if no added pair has a colon in its
name, or in its version where that is the name. -/
theorem roundTrip_iff (db : Db) (calls : List Added) :
    ((∀ pr, pr ∈ getApprovedPolicies (addAll (noPolicies db) calls) ↔ ∃ c ∈ calls, c.pair = pr) ∧
      ∀ m a v, m ∈ db.modelVersions → a ∈ db.agentVersions →
        (validateGovernance (addAll (noPolicies db) calls) m a v = .ok () ↔ ∃ c ∈ calls, c.version = v)) ↔
      ∀ c ∈ calls, ':' ∉ (nameOr c.name c.version).toList := by
  have hpairs : ∀ pr, pr ∈ getApprovedPolicies (addAll (noPolicies db) calls) ↔
      ∃ c ∈ calls, keyPair (joinKey c.pair.1 c.pair.2) = pr := by
    intro pr
    rw [mem_getApprovedPolicies]
    simp only [activeKey_addAll, policyKey_eq]
    constructor
    · rintro ⟨_, ⟨c, hc, rfl⟩, rfl⟩
      exact ⟨c, hc, rfl⟩
    · rintro ⟨c, hc, rfl⟩
      exact ⟨_, ⟨c, hc, rfl⟩, rfl⟩
  obtain ⟨hmodels, hagents⟩ := addAll_versions db calls
  constructor
  · rintro ⟨hset, -⟩ c hc
    -- an added pair is the split of some stored text, and is split the same way again
    obtain ⟨c', hc', hpr⟩ := (hpairs c.pair).1 ((hset c.pair).2 ⟨c, hc, rfl⟩)
    have hfix := keyPair_idempotent (joinKey c'.pair.1 c'.pair.2)
    rw [hpr] at hfix
    exact keyPair_joinKey_iff.1 hfix
  · intro hfree
    have hback : ∀ c ∈ calls, keyPair (joinKey c.pair.1 c.pair.2) = c.pair :=
      fun c hc => keyPair_joinKey_iff.2 (hfree c hc)
    have hset : ∀ pr, pr ∈ getApprovedPolicies (addAll (noPolicies db) calls) ↔ ∃ c ∈ calls, c.pair = pr := by
      intro pr
      rw [hpairs]
      exact exists_congr fun c => and_congr_right fun hc => by rw [hback c hc]
    refine ⟨hset, fun m a v hm ha => ?_⟩
    rw [validateGovernance_eq_ok, hmodels, hagents, policyVersions_eq, List.mem_map]
    constructor
    · rintro ⟨-, -, pr, hpr, rfl⟩
      obtain ⟨c, hc, rfl⟩ := (hset pr).1 hpr
      exact ⟨c, hc, rfl⟩
    · rintro ⟨c, hc, rfl⟩
      exact ⟨hm, ha, c.pair, (hset c.pair).2 ⟨c, hc, rfl⟩, rfl⟩

/-- A version with a colon is accepted by its second half and not as it was added. -/
theorem colon_not_returned : ¬ (∀ pr, pr ∈ getApprovedPolicies (addAll .fresh [⟨"t", "v:2", ""⟩]) ↔
      ∃ c ∈ [(⟨"t", "v:2", ""⟩ : Added)], c.pair = pr) ∧
    "v:2" ∉ (addAll .fresh [⟨"t", "v:2", ""⟩]).policyVersions ∧
      "2" ∈ (addAll .fresh [⟨"t", "v:2", ""⟩]).policyVersions := by
  refine ⟨fun h => ?_, by decide, by decide⟩
  have hmem := (h ("v:2", "v:2")).2 ⟨_, List.mem_singleton_self _, by decide⟩
  exact absurd hmem (by decide)

/-! ### Deactivation -/

/-- `is_policy_active`. -/
def isPolicyActive (db : Db) (version : String) : Bool :=
  db.approvedPolicies.any fun r => r.policyVersion = version && r.active

theorem isPolicyActive_iff {db : Db} {v : String} : isPolicyActive db v = true ↔ ActiveKey db v := by
  rw [isPolicyActive, List.any_eq_true]
  simp only [ActiveKey, Bool.and_eq_true, decide_eq_true_eq]
  exact exists_congr fun r => and_congr_right fun _ => and_comm

/-- `approve_policy`. -/
def approvePolicy (db : Db) (now version : String) (active : Bool) : Db :=
  if active then db.addApprovedPolicy now version "" else db.deactivatePolicy version

/-- A text without a colon. -/
structure ColonFree where
  text : String
  noColon : ':' ∉ text.toList

theorem ColonFree.ext {v w : ColonFree} (h : v.text = w.text) : v = w := by
  obtain ⟨s, _⟩ := v
  obtain ⟨t, _⟩ := w
  obtain rfl : s = t := h
  rfl

theorem empty_noColon : ':' ∉ "".toList := by simp

/-- The default of `policy_name`. -/
def noName : ColonFree := ⟨"", empty_noColon⟩

/-- A call on the registry, its texts without colons. -/
inductive Op where
  | addApprovedPolicy (now : String) (version name : ColonFree)
  | approvePolicy (now : String) (version : ColonFree) (active : Bool)
  | deactivatePolicy (version : ColonFree)

/-- The name is one of its own: neither empty nor the version. -/
def OwnName (name version : ColonFree) : Prop := name.text ≠ "" ∧ name.text ≠ version.text

namespace Op

/-- The database after the call. -/
def run (db : Db) : Op → Db
  | addApprovedPolicy now v n => db.addApprovedPolicy now v.text n.text
  | approvePolicy now v active => Policies.approvePolicy db now v.text active
  | deactivatePolicy v => db.deactivatePolicy v.text

/-- The call approves the version, under a name or alone. -/
def Approves (v : ColonFree) : Op → Prop
  | addApprovedPolicy _ w _ => v = w
  | approvePolicy _ w active => v = w ∧ active = true
  | deactivatePolicy _ => False

/-- The call deactivates the version. -/
def Deactivates (v : ColonFree) : Op → Prop
  | addApprovedPolicy .. => False
  | approvePolicy _ w active => v = w ∧ active = false
  | deactivatePolicy w => v = w

/-- The call gives the version a name of its own. -/
def Names (v : ColonFree) : Op → Prop
  | addApprovedPolicy _ w n => v = w ∧ OwnName n w
  | approvePolicy .. => False
  | deactivatePolicy _ => False

end Op

/-- The registry after calls, from a database without policies. -/
def runOps (db : Db) (ops : List Op) : Db := ops.foldl Op.run (noPolicies db)

theorem runOps_concat (db : Db) (ops : List Op) (op : Op) : runOps db (ops ++ [op]) = op.run (runOps db ops) := by
  rw [runOps, List.foldl_append]
  rfl

/-- A version is active under a name. -/
def Named (db : Db) (v : ColonFree) : Prop :=
  ∃ n : ColonFree, OwnName n v ∧ ActiveKey db (n.text ++ ":" ++ v.text)

theorem joined_ne (n v : String) (w : ColonFree) : n ++ ":" ++ v ≠ w.text := by
  intro h
  have hc : ':' ∈ (n ++ ":" ++ v).toList := by simp
  exact w.noColon (h ▸ hc)

theorem joined_inj {n v n' v' : ColonFree} (h : n.text ++ ":" ++ v.text = n'.text ++ ":" ++ v'.text) :
    n = n' ∧ v = v' := by
  have hp := congrArg keyPair h
  rw [keyPair_join _ n.noColon, keyPair_join _ n'.noColon] at hp
  exact ⟨ColonFree.ext (Prod.mk.inj hp).1, ColonFree.ext (Prod.mk.inj hp).2⟩

theorem policyKey_of_ownName {n v : ColonFree} (h : OwnName n v) :
    Db.policyKey v.text n.text = n.text ++ ":" ++ v.text := if_pos h

theorem policyKey_of_not_ownName {n v : ColonFree} (h : ¬ OwnName n v) : Db.policyKey v.text n.text = v.text :=
  if_neg h

section

variable {db : Db} {now : String} {v n w : ColonFree}

theorem alone_add : ActiveKey (db.addApprovedPolicy now v.text n.text) w.text ↔
    (w = v ∧ ¬ OwnName n v) ∨ ActiveKey db w.text := by
  rw [activeKey_add]
  refine or_congr_left ?_
  by_cases hn : OwnName n v
  · rw [policyKey_of_ownName hn]
    exact iff_of_false (fun h => joined_ne _ _ w h.symm) fun h => h.2 hn
  · rw [policyKey_of_not_ownName hn]
    exact ⟨fun h => ⟨ColonFree.ext h, hn⟩, fun h => congrArg _ h.1⟩

theorem named_add : Named (db.addApprovedPolicy now v.text n.text) w ↔ (w = v ∧ OwnName n v) ∨ Named db w := by
  simp only [Named, activeKey_add]
  constructor
  · rintro ⟨m, hm, h | h⟩
    · by_cases hn : OwnName n v
      · rw [policyKey_of_ownName hn] at h
        obtain ⟨rfl, rfl⟩ := joined_inj h
        exact .inl ⟨rfl, hn⟩
      · rw [policyKey_of_not_ownName hn] at h
        exact absurd h (joined_ne _ _ v)
    · exact .inr ⟨m, hm, h⟩
  · rintro (⟨rfl, hn⟩ | ⟨m, hm, h⟩)
    · exact ⟨n, hn, .inl (policyKey_of_ownName hn).symm⟩
    · exact ⟨m, hm, .inr h⟩

theorem alone_deactivate : ActiveKey (db.deactivatePolicy v.text) w.text ↔ w ≠ v ∧ ActiveKey db w.text := by
  rw [activeKey_deactivate]
  exact and_congr_left fun _ => not_congr ⟨ColonFree.ext, congrArg _⟩

/-- No deactivation reaches a row under a name. -/
theorem named_deactivate : Named (db.deactivatePolicy v.text) w ↔ Named db w := by
  simp only [Named, activeKey_deactivate]
  exact exists_congr fun m => and_congr_right fun _ => and_iff_right (joined_ne _ _ v)

end

namespace Op

variable {db : Db} {op : Op} {v : ColonFree}

theorem approvePolicy_run (db : Db) (now : String) (v : ColonFree) : (approvePolicy now v true).run db =
    (addApprovedPolicy now v noName).run db := rfl

/-- When a version is active by itself after a call. -/
theorem alone_run : ActiveKey (op.run db) v.text ↔
    (op.Approves v ∧ ¬ op.Names v) ∨ (ActiveKey db v.text ∧ ¬ op.Deactivates v) := by
  cases op with
  | addApprovedPolicy now w n =>
    rw [run, alone_add, Approves, Names, Deactivates]
    tauto
  | approvePolicy now w active =>
    cases active with
    | true =>
      have hn : ¬ OwnName noName w := fun h => h.1 rfl
      rw [approvePolicy_run, run, alone_add, Approves, Names, Deactivates]
      tauto
    | false =>
      rw [run, Policies.approvePolicy, if_neg Bool.false_ne_true, alone_deactivate, Approves, Names, Deactivates]
      tauto
  | deactivatePolicy w =>
    rw [run, alone_deactivate, Approves, Names, Deactivates]
    tauto

/-- When a version is active under a name after a call. -/
theorem named_run : Named (op.run db) v ↔ op.Names v ∨ Named db v := by
  cases op with
  | addApprovedPolicy now w n => rw [run, named_add, Names]
  | approvePolicy now w active =>
    cases active with
    | true =>
      have hn : ¬ OwnName noName w := fun h => h.1 rfl
      rw [approvePolicy_run, run, named_add, Names]
      tauto
    | false => rw [run, Policies.approvePolicy, if_neg Bool.false_ne_true, named_deactivate, Names, false_or]
  | deactivatePolicy w => rw [run, named_deactivate, Names, false_or]

/-- No call both approves and deactivates a version. -/
theorem not_deactivates (h : op.Approves v) : ¬ op.Deactivates v := by
  cases op with
  | addApprovedPolicy now w n => exact not_false
  | approvePolicy now w active => exact fun hd => absurd (h.2.symm.trans hd.2) (by decide)
  | deactivatePolicy w => exact h.elim

theorem Names.approves (h : op.Names v) : op.Approves v := by
  cases op with
  | addApprovedPolicy now w n => exact h.1
  | _ => exact h.elim

end Op

/-! ### What deactivation has to do -/

/-- Every active row is of a version, alone or under a name. -/
def KeysJoined (db : Db) : Prop :=
  ∀ key, ActiveKey db key → (∃ v : ColonFree, key = v.text) ∨
    ∃ n v : ColonFree, OwnName n v ∧ key = n.text ++ ":" ++ v.text

theorem KeysJoined.add {db : Db} (h : KeysJoined db) (now : String) (v n : ColonFree) :
    KeysJoined (db.addApprovedPolicy now v.text n.text) := by
  intro key hkey
  rcases activeKey_add.1 hkey with rfl | hkey
  · by_cases hn : OwnName n v
    · exact .inr ⟨n, v, hn, policyKey_of_ownName hn⟩
    · exact .inl ⟨v, policyKey_of_not_ownName hn⟩
  · exact h key hkey

theorem KeysJoined.run {db : Db} (h : KeysJoined db) (op : Op) : KeysJoined (op.run db) := by
  have hoff : ∀ v : ColonFree, KeysJoined (db.deactivatePolicy v.text) :=
    fun v key hkey => h key (activeKey_deactivate.1 hkey).2
  cases op with
  | addApprovedPolicy now v n => exact h.add now v n
  | approvePolicy now v active =>
    cases active with
    | true => exact h.add now v noName
    | false => exact hoff v
  | deactivatePolicy v => exact hoff v

theorem KeysJoined.runOps (db : Db) (ops : List Op) : KeysJoined (runOps db ops) := by
  induction ops using List.reverseRecOn with
  | nil => rintro key ⟨r, hr, -⟩; cases hr
  | append_singleton ops op ih => rw [runOps_concat]; exact ih.run op

/-- The versions that decisions may cite are active alone or under a name. -/
theorem KeysJoined.mem_policyVersions {db : Db} (h : KeysJoined db) (v : ColonFree) :
    v.text ∈ db.policyVersions ↔ ActiveKey db v.text ∨ Named db v := by
  rw [policyVersions_eq, List.mem_map]
  constructor
  · rintro ⟨pr, hpr, hv⟩
    obtain ⟨key, hkey, rfl⟩ := mem_getApprovedPolicies.1 hpr
    rcases h key hkey with ⟨w, rfl⟩ | ⟨n, w, hn, rfl⟩
    · rw [keyPair_plain w.noColon] at hv
      exact .inl (hv ▸ hkey)
    · rw [keyPair_join _ n.noColon] at hv
      obtain rfl : w = v := ColonFree.ext hv
      exact .inr ⟨n, hn, hkey⟩
  · rintro (hkey | ⟨n, -, hkey⟩)
    · exact ⟨_, mem_getApprovedPolicies.2 ⟨_, hkey, rfl⟩, by rw [keyPair_plain v.noColon]⟩
    · exact ⟨_, mem_getApprovedPolicies.2 ⟨_, hkey, rfl⟩, by rw [keyPair_join _ n.noColon]⟩

/-- What is asked of the registry after a list of calls.  The two lookups agree,
and a version that was deactivated and not approved since is inactive, not among the
versions, and refused by the check of a decision. -/
structure TakesEffect (db : Db) (ops : List Op) : Prop where
  lookups : ∀ v : ColonFree, isPolicyActive (runOps db ops) v.text = true ↔ v.text ∈ (runOps db ops).policyVersions
  deactivated : ∀ (v : ColonFree) (before after : List Op) (op : Op), ops = before ++ op :: after →
    op.Deactivates v → (∀ o ∈ after, ¬ o.Approves v) →
      isPolicyActive (runOps db ops) v.text = false ∧ v.text ∉ (runOps db ops).policyVersions ∧
        ∀ m a, m ∈ db.modelVersions → a ∈ db.agentVersions →
          validateGovernance (runOps db ops) m a v.text =
            .error (.policyViolation v.text ("policy '" ++ v.text ++ "' is not active"))

/-- The call gives a name only to versions that are active by themselves, and
deactivates none that has a name. -/
def StepOk (db : Db) (op : Op) : Prop :=
  ∀ v : ColonFree, (op.Names v → isPolicyActive db v.text = true) ∧ (op.Deactivates v → ¬ Named db v)

/-- Every version that is active under a name is active by itself. -/
def Consistent (db : Db) : Prop := ∀ v : ColonFree, Named db v → ActiveKey db v.text

/-- A call keeps the lookups together exactly if it meets the condition. -/
theorem Consistent.run_iff {db : Db} (h : Consistent db) {op : Op} : Consistent (op.run db) ↔ StepOk db op := by
  constructor
  · intro h' v
    refine ⟨fun hn => ?_, fun hd hnamed => ?_⟩
    · rcases Op.alone_run.1 (h' v (Op.named_run.2 (.inl hn))) with ⟨-, hno⟩ | ⟨ha, -⟩
      · exact absurd hn hno
      · exact isPolicyActive_iff.2 ha
    · rcases Op.alone_run.1 (h' v (Op.named_run.2 (.inr hnamed))) with ⟨ha, -⟩ | ⟨-, hno⟩
      · exact Op.not_deactivates ha hd
      · exact hno hd
  · intro hok v hnamed
    rcases Op.named_run.1 hnamed with hn | hnamed
    · exact Op.alone_run.2 (.inr ⟨isPolicyActive_iff.1 ((hok v).1 hn), Op.not_deactivates hn.approves⟩)
    · exact Op.alone_run.2 (.inr ⟨h v hnamed, fun hd => (hok v).2 hd hnamed⟩)

theorem lookups_iff {db : Db} {ops : List Op} :
    (∀ v : ColonFree, isPolicyActive (runOps db ops) v.text = true ↔ v.text ∈ (runOps db ops).policyVersions) ↔
      Consistent (runOps db ops) := by
  have hk := KeysJoined.runOps db ops
  constructor
  · intro h v hnamed
    exact isPolicyActive_iff.1 ((h v).2 ((hk.mem_policyVersions v).2 (.inr hnamed)))
  · intro h v
    rw [isPolicyActive_iff, hk.mem_policyVersions]
    exact ⟨.inl, fun hv => hv.elim id (h v)⟩

/-- A version stays inactive by itself from its deactivation to its next approval. -/
theorem not_active_of_deactivated (db : Db) (v : ColonFree) (before : List Op) {op : Op} (hop : op.Deactivates v) :
    ∀ after : List Op, (∀ o ∈ after, ¬ o.Approves v) → ¬ ActiveKey (runOps db (before ++ op :: after)) v.text := by
  intro after
  induction after using List.reverseRecOn with
  | nil =>
    intro _ h
    rw [runOps_concat, Op.alone_run] at h
    rcases h with ⟨ha, -⟩ | ⟨-, hno⟩
    · exact Op.not_deactivates ha hop
    · exact hno hop
  | append_singleton after o ih =>
    intro hno h
    have hsplit : before ++ op :: (after ++ [o]) = (before ++ op :: after) ++ [o] := by simp
    rw [hsplit, runOps_concat, Op.alone_run] at h
    rcases h with ⟨ha, -⟩ | ⟨h, -⟩
    · exact hno o (by simp) ha
    · exact ih (fun o ho => hno o (List.mem_append_left _ ho)) h

theorem runOps_versions (db : Db) (ops : List Op) :
    (runOps db ops).modelVersions = db.modelVersions ∧ (runOps db ops).agentVersions = db.agentVersions := by
  induction ops using List.reverseRecOn with
  | nil => exact ⟨rfl, rfl⟩
  | append_singleton ops op ih =>
    rw [runOps_concat]
    cases op with
    | approvePolicy now v active => cases active <;> exact ih
    | _ => exact ih

theorem takesEffect_iff {db : Db} {ops : List Op} : TakesEffect db ops ↔ Consistent (runOps db ops) := by
  refine ⟨fun h => lookups_iff.1 h.lookups, fun h => ⟨lookups_iff.2 h, ?_⟩⟩
  rintro v before after op rfl hop hno
  have hinactive := not_active_of_deactivated db v before hop after hno
  have hmem : v.text ∉ (runOps db (before ++ op :: after)).policyVersions := by
    rw [(KeysJoined.runOps db _).mem_policyVersions]
    rintro (ha | hn)
    · exact hinactive ha
    · exact hinactive (h v hn)
  refine ⟨Bool.eq_false_iff.2 fun ha => hinactive (isPolicyActive_iff.1 ha), hmem, fun m a hm ha => ?_⟩
  obtain ⟨hmodels, hagents⟩ := runOps_versions db (before ++ op :: after)
  rw [validateGovernance, if_neg (by rw [hmodels]; exact not_not.2 hm), if_neg (by rw [hagents]; exact not_not.2 ha),
    if_pos hmem]

/-- **Deactivation takes effect at every point of a run** if and only if each call
of it gives a name only to a version that is active by itself and deactivates no
version that has a name. -/
theorem deactivation_iff (db : Db) (ops : List Op) :
    (∀ before after, ops = before ++ after → TakesEffect db before) ↔
      ∀ before op after, ops = before ++ op :: after → StepOk (runOps db before) op := by
  constructor
  · rintro h before op after rfl
    have h1 := takesEffect_iff.1 (h before (op :: after) rfl)
    have h2 := takesEffect_iff.1 (h (before ++ [op]) after (by simp))
    rw [runOps_concat] at h2
    exact h1.run_iff.1 h2
  · intro h before
    induction before using List.reverseRecOn with
    | nil =>
      intro after _
      refine takesEffect_iff.2 ?_
      rintro v ⟨n, -, r, hr, -⟩
      cases hr
    | append_singleton before op ih =>
      rintro after rfl
      have h1 := takesEffect_iff.1 (ih (op :: after) (by simp))
      rw [takesEffect_iff, runOps_concat]
      exact h1.run_iff.2 (h before op after (by simp))

/-- A version that is approved under a name stays among the versions after its
deactivation, which it is told to be inactive by. -/
theorem named_not_deactivated : ¬ ∀ before after,
    [Op.addApprovedPolicy "t" ⟨"v2", by decide⟩ ⟨"credit", by decide⟩, .deactivatePolicy ⟨"v2", by decide⟩] =
      before ++ after → TakesEffect .fresh before := by
  intro h
  have heff := h _ [] (List.append_nil _).symm
  have hmem := (heff.lookups ⟨"v2", by decide⟩).2 (by decide)
  exact absurd hmem (by decide)

end Policies
end ProvableAi
