/-
# What an approval request reports

`POST /governance/model`, `POST /governance/agent` and `POST /governance/policy`.
Each handler stores the version, which commits, and then writes its log lines, all
in one `try` whose `except Exception` answers 400.

A text that cannot be stored raises before anything is written.  After the commit
the three differ.  Nothing that `approve_agent` runs then raises.  `approve_model`
cites `model_version` in its audit line, a name that `main.py` does not define, so
a model that was stored is reported as a failure.  `approve_policy` succeeds, but
a name with a colon is split elsewhere than it was joined, and the version that is
read back is not the one of the request.  `reports_iff` is the exact condition.
-/

import ProvableAi.Engine.Policies
import ProvableAi.Storage.Atomic

namespace ProvableAi
namespace Approvals

open Atomic (Store)
open Policies (joinKey nameOr keyPair ActiveKey)

/-! ### What is raised -/

/-- What the handlers catch. -/
inductive Err where
  /-- A text with a surrogate, which SQLite cannot be given. -/
  | unicodeEncodeError (text : PyStr)
  | nameError (name : String)

/-- The surrogates that a text begins with. -/
def leadingSurrogates : PyStr → List CodePoint
  | .surrogate n :: s => .surrogate n :: leadingSurrogates s
  | _ => []

/-- `str(e)`. -/
def Err.text : Err → String
  | unicodeEncodeError s =>
    let start := (s.takeWhile fun c => c.scalar?.isSome).length
    match leadingSurrogates (s.drop start) with
    | [c] => "'utf-8' codec can't encode character '" ++ String.ofList (c.repr '\'') ++ "' in position " ++
        toString start ++ ": surrogates not allowed"
    | cs => "'utf-8' codec can't encode characters in position " ++ toString start ++ "-" ++
        toString (start + cs.length - 1) ++ ": surrogates not allowed"
  | nameError name => "name '" ++ name ++ "' is not defined"

/-- A text as a parameter of a statement. -/
def encode (s : PyStr) : Except Err String :=
  match s.toString? with
  | some t => .ok t
  | none => .error (.unicodeEncodeError s)

/-! ### The storage -/

/-- `add_approved_model`, up to its commit. -/
def addApprovedModel (db : Db) (now : String) (modelVersion modelName : PyStr) : Except Err Db := do
  let version ← encode modelVersion
  let name ← encode (if modelName = [] then modelVersion else modelName)
  .ok { db with approvedModels := replaceVersion db.approvedModels ⟨version, name, now⟩ }

/-- `add_approved_agent`, up to its commit. -/
def addApprovedAgent (db : Db) (now : String) (agentVersion agentName : PyStr) : Except Err Db := do
  let version ← encode agentVersion
  let name ← encode (if agentName = [] then agentVersion else agentName)
  .ok { db with approvedAgents := replaceVersion db.approvedAgents ⟨version, name, now⟩ }

/-- `add_approved_policy`, up to its commit. -/
def addApprovedPolicy (db : Db) (now : String) (policyVersion policyName : PyStr) : Except Err Db := do
  let key ← encode (if policyName ≠ [] ∧ policyName ≠ policyVersion then
    policyName ++ PyStr.ofString ":" ++ policyVersion else policyVersion)
  .ok { db with
    approvedPolicies := db.approvedPolicies.filter (fun r => r.policyVersion ≠ key) ++ [⟨key, true, now⟩] }

/-! ### The handlers -/

/-- `GovernanceApproveRequest`. -/
structure Request where
  name : PyStr
  version : PyStr

/-- `GovernanceApproveResponse`. -/
structure Response where
  name : PyStr
  version : PyStr
  approved : Bool
  message : PyStr

/-- The status and the detail of an `HTTPException`. -/
structure Failure where
  status : ℕ
  error : String
  message : String

/-- The `except` clause of the handlers. -/
def governanceError (e : Err) : Failure := ⟨400, "GOVERNANCE_ERROR", e.text⟩

/-- The body of a handler: what is stored is committed, then the lines of the logs
are written, whose arguments may raise. -/
def handler (s : Store) (stored : Except Err Db) (logged : Except Err Unit) (response : Response) :
    Except Failure Response × Store :=
  match stored with
  | .error e => (.error (governanceError e), s)
  | .ok db =>
    let committed := s.committing fun _ => db
    match logged with
    | .error e => (.error (governanceError e), committed)
    | .ok () => (.ok response, committed)

/-- `'{name}:{version}'` after a word. -/
def quoted (word : String) (body : Request) : PyStr :=
  PyStr.ofString (word ++ " '") ++ body.name ++ PyStr.ofString ":" ++ body.version ++ PyStr.ofString "'"

/-- `approve_model`. -/
def approveModel (s : Store) (now : String) (body : Request) : Except Failure Response × Store :=
  let existing := s.working.modelVersions.map PyStr.ofString
  let already := body.version ∈ existing
  handler s (addApprovedModel s.working now body.version body.name)
    -- `_admin_audit(.., model_version=model_version)`: neither a local nor a global has the name
    (.error (.nameError "model_version"))
    { name := body.name
      version := body.version
      approved := true
      message := quoted "Model" body ++
        PyStr.ofString (if already then " was already approved — updated name." else " approved.") }

/-- `approve_agent`. -/
def approveAgent (s : Store) (now : String) (body : Request) : Except Failure Response × Store :=
  handler s (addApprovedAgent s.working now body.version body.name) (.ok ())
    { name := body.name
      version := body.version
      approved := true
      message := quoted "Agent" body ++ PyStr.ofString " approved." }

/-- `approve_policy`. -/
def approvePolicy (s : Store) (now : String) (body : Request) : Except Failure Response × Store :=
  handler s (addApprovedPolicy s.working now body.version body.name) (.ok ())
    { name := body.name
      version := body.version
      approved := true
      message := quoted "Policy" body ++ PyStr.ofString " approved." }

/-- The three routes. -/
inductive Endpoint where
  | model
  | agent
  | policy

namespace Endpoint

/-- The handler of a route. -/
def approve : Endpoint → Store → String → Request → Except Failure Response × Store
  | model => approveModel
  | agent => approveAgent
  | policy => approvePolicy

/-- The versions that a decision may cite. -/
def versions : Endpoint → Db → List String
  | model => Db.modelVersions
  | agent => Db.agentVersions
  | policy => Db.policyVersions

/-- The call of the storage, on texts that can be stored. -/
def op (now version name : String) : Endpoint → Atomic.Op
  | model => .addApprovedModel now version name
  | agent => .addApprovedAgent now version name
  | policy => .addApprovedPolicy now version name

/-- The tables after that call. -/
def add (db : Db) (now version name : String) : Endpoint → Db
  | model => db.addApprovedModel now version name
  | agent => db.addApprovedAgent now version name
  | policy => db.addApprovedPolicy now version name

end Endpoint

/-! ### The property -/

/-- The approval tables, as they are committed. -/
def approvals (s : Store) : List ApprovedVersion × List ApprovedVersion × List ApprovedPolicy :=
  (s.committed.approvedModels, s.committed.approvedAgents, s.committed.approvedPolicies)

/-- **A request reports what it did.** -/
structure Reports (e : Endpoint) (s : Store) (now : String) (body : Request) : Prop where
  /-- After a success the version is approved. -/
  success : ∀ r, (e.approve s now body).1 = .ok r →
    ∃ v, body.version.toString? = some v ∧ v ∈ e.versions (e.approve s now body).2.committed
  /-- After a failure the approval tables are what they were. -/
  failure : ∀ f, (e.approve s now body).1 = .error f → approvals (e.approve s now body).2 = approvals s

/-- The row is written already: it is the last one, and no other has its key. -/
def Written (rows : List ApprovedVersion) (row : ApprovedVersion) : Prop :=
  ∃ rest, rows = rest ++ [row] ∧ ∀ r ∈ rest, r.version ≠ row.version

/-- What the report of a request on storable texts depends on. -/
def Endpoint.Right (s : Store) (now v n : String) : Endpoint → Prop
  | model => Written s.committed.approvedModels ⟨v, nameOr n v, now⟩
  | agent => True
  | policy => ':' ∉ (nameOr n v).toList ∨ v ∈ s.committed.policyVersions

/-! ### Texts that can be stored -/

theorem toString?_eq_some {s : PyStr} {t : String} : s.toString? = some t ↔ s = .ofString t := by
  refine ⟨fun h => ?_, fun h => h ▸ PyStr.toString?_ofString t⟩
  obtain ⟨cs, hcs, rfl⟩ := Option.map_eq_some_iff.1 h
  rw [PyStr.ofString, String.toList_ofList]
  clear h
  induction s generalizing cs with
  | nil =>
    obtain rfl := Option.some.inj hcs
    rfl
  | cons c s ih =>
    rw [List.mapM_cons] at hcs
    cases c with
    | surrogate n => cases hcs
    | char c =>
      cases hm : s.mapM CodePoint.scalar? with
      | none => rw [hm] at hcs; cases hcs
      | some ds =>
        rw [hm] at hcs
        obtain rfl := Option.some.inj hcs
        rw [ih ds hm]
        rfl

theorem encode_ofString (t : String) : encode (.ofString t) = .ok t := by
  rw [encode, PyStr.toString?_ofString]

theorem encode_error {s : PyStr} (h : s.toString? = none) : encode s = .error (.unicodeEncodeError s) := by
  rw [encode, h]

theorem ofString_eq_nil {t : String} : PyStr.ofString t = [] ↔ t = "" := by
  rw [PyStr.ofString, List.map_eq_nil_iff, String.toList_eq_nil_iff]

theorem ofString_inj {s t : String} : PyStr.ofString s = .ofString t ↔ s = t := by
  refine ⟨fun h => ?_, congrArg _⟩
  have h' := congrArg PyStr.toString? h
  rw [PyStr.toString?_ofString, PyStr.toString?_ofString] at h'
  exact Option.some.inj h'

/-- A text is stored only if each part of it can be. -/
theorem toString?_append_eq_none {s t : PyStr} (h : s.toString? = none ∨ t.toString? = none) :
    (s ++ t).toString? = none := by
  by_contra hne
  obtain ⟨u, hu⟩ := Option.ne_none_iff_exists'.1 hne
  obtain ⟨a, b, -, ha, hb⟩ := List.map_eq_append_iff.1 (toString?_eq_some.1 hu).symm
  have htext : ∀ cs : List Char, PyStr.toString? (cs.map .char) ≠ none := by
    intro cs
    have h := PyStr.toString?_ofString (String.ofList cs)
    rw [PyStr.ofString, String.toList_ofList] at h
    rw [h]
    exact Option.some_ne_none _
  rcases h with h | h
  · exact htext a (ha ▸ h)
  · exact htext b (hb ▸ h)

namespace Endpoint

/-- What a handler stores. -/
def store (db : Db) (now : String) (body : Request) : Endpoint → Except Err Db
  | model => addApprovedModel db now body.version body.name
  | agent => addApprovedAgent db now body.version body.name
  | policy => addApprovedPolicy db now body.version body.name

/-- On texts that can be stored the storage is that of the typed model. -/
theorem store_ofString (db : Db) (now v n : String) (e : Endpoint) :
    e.store db now ⟨.ofString n, .ofString v⟩ = .ok (e.add db now v n) := by
  have hor : (if PyStr.ofString n = [] then PyStr.ofString v else .ofString n) = .ofString (if n = "" then v else n) := by
    by_cases hn : n = ""
    · rw [if_pos (ofString_eq_nil.2 hn), if_pos hn]
    · rw [if_neg (mt ofString_eq_nil.1 hn), if_neg hn]
  cases e with
  | model => simp only [store, addApprovedModel, hor, encode_ofString, ok_bind, add, Db.addApprovedModel]
  | agent => simp only [store, addApprovedAgent, hor, encode_ofString, ok_bind, add, Db.addApprovedAgent]
  | policy =>
    have hkey : (if PyStr.ofString n ≠ [] ∧ PyStr.ofString n ≠ .ofString v then
        PyStr.ofString n ++ PyStr.ofString ":" ++ PyStr.ofString v else PyStr.ofString v) =
        .ofString (Db.policyKey v n) := by
      have hiff : (PyStr.ofString n ≠ [] ∧ PyStr.ofString n ≠ .ofString v) ↔ (n ≠ "" ∧ n ≠ v) :=
        and_congr (not_congr ofString_eq_nil) (not_congr ofString_inj)
      by_cases hown : n ≠ "" ∧ n ≠ v
      · rw [if_pos (hiff.2 hown), Db.policyKey, if_pos hown]
        simp [PyStr.ofString]
      · rw [if_neg (mt hiff.1 hown), Db.policyKey, if_neg hown]
    simp only [store, addApprovedPolicy, hkey, encode_ofString, ok_bind, add, Db.addApprovedPolicy]

/-- A text that cannot be stored raises. -/
theorem store_error {body : Request} (h : body.version.toString? = none ∨ body.name.toString? = none) (db : Db)
    (now : String) (e : Endpoint) : ∃ err, e.store db now body = .error err := by
  have hempty : PyStr.toString? [] ≠ none := by simp [PyStr.toString?]
  have hname : body.version.toString? ≠ none →
      (if body.name = [] then body.version else body.name).toString? = none := by
    intro hv
    have hn := h.resolve_left hv
    have hne : body.name ≠ [] := by
      rintro hnil
      rw [hnil] at hn
      exact hempty hn
    rw [if_neg hne]
    exact hn
  -- a version or a name of a table with both columns
  have hpair : ∀ f : String → String → Db, ∃ err, (do
      let version ← encode body.version
      let name ← encode (if body.name = [] then body.version else body.name)
      .ok (f version name) : Except Err Db) = .error err := by
    intro f
    cases hv : body.version.toString? with
    | none => exact ⟨_, by rw [encode_error hv]; rfl⟩
    | some v =>
      have hn := hname (by rw [hv]; exact Option.some_ne_none v)
      rw [toString?_eq_some.1 hv] at hn ⊢
      exact ⟨_, by rw [encode_ofString, ok_bind, encode_error hn]; rfl⟩
  cases e with
  | model => exact hpair _
  | agent => exact hpair _
  | policy =>
    rw [store, addApprovedPolicy]
    by_cases hown : body.name ≠ [] ∧ body.name ≠ body.version
    · have hkey : (body.name ++ PyStr.ofString ":" ++ body.version).toString? = none := by
        refine toString?_append_eq_none (h.symm.imp_left fun hn => ?_)
        exact toString?_append_eq_none (.inl hn)
      rw [if_pos hown, encode_error hkey]
      exact ⟨_, rfl⟩
    · have hv : body.version.toString? = none := by
        by_contra hv
        have hn := h.resolve_left hv
        refine hown ⟨fun hnil => ?_, fun heq => hv (heq ▸ hn)⟩
        rw [hnil] at hn
        exact hempty hn
      rw [if_neg hown, encode_error hv]
      exact ⟨_, rfl⟩

/-- A request whose texts cannot be stored is refused, with nothing changed. -/
theorem approve_error {body : Request} (h : body.version.toString? = none ∨ body.name.toString? = none)
    (s : Store) (now : String) (e : Endpoint) : ∃ f, e.approve s now body = (.error f, s) := by
  obtain ⟨err, herr⟩ := store_error h s.working now e
  cases e with
  | model => exact ⟨_, by rw [approve, approveModel, ← store, herr]; rfl⟩
  | agent => exact ⟨_, by rw [approve, approveAgent, ← store, herr]; rfl⟩
  | policy => exact ⟨_, by rw [approve, approvePolicy, ← store, herr]; rfl⟩

/-- What every other request leaves: the storage after the call of its method. -/
theorem approve_state (s : Store) (now v n : String) (e : Endpoint) :
    (e.approve s now ⟨.ofString n, .ofString v⟩).2 = s.committing fun db => e.add db now v n := by
  have hst := store_ofString s.working now v n e
  cases e with
  | model => rw [approve, approveModel, ← store, hst]; rfl
  | agent => rw [approve, approveAgent, ← store, hst]; rfl
  | policy => rw [approve, approvePolicy, ← store, hst]; rfl

theorem approve_model_result (s : Store) (now v n : String) :
    (model.approve s now ⟨.ofString n, .ofString v⟩).1 = .error (governanceError (.nameError "model_version")) := by
  have hst := store_ofString s.working now v n model
  rw [approve, approveModel, ← store, hst]
  rfl

theorem approve_agent_result (s : Store) (now v n : String) :
    ∃ r, (agent.approve s now ⟨.ofString n, .ofString v⟩).1 = .ok r := by
  have hst := store_ofString s.working now v n agent
  exact ⟨_, by rw [approve, approveAgent, ← store, hst]; rfl⟩

theorem approve_policy_result (s : Store) (now v n : String) :
    ∃ r, (policy.approve s now ⟨.ofString n, .ofString v⟩).1 = .ok r := by
  have hst := store_ofString s.working now v n policy
  exact ⟨_, by rw [approve, approvePolicy, ← store, hst]; rfl⟩

end Endpoint

/-! ### When the report is right -/

/-- Replacing a row changes nothing exactly if the row is written already. -/
theorem replaceVersion_eq_iff {rows : List ApprovedVersion} {row : ApprovedVersion} :
    replaceVersion rows row = rows ↔ Written rows row := by
  rw [replaceVersion]
  constructor
  · intro h
    exact ⟨_, h.symm, fun r hr => of_decide_eq_true (List.mem_filter.1 hr).2⟩
  · rintro ⟨rest, rfl, hrest⟩
    have hkeep : rest.filter (fun r => r.version ≠ row.version) = rest :=
      List.filter_eq_self.2 fun r hr => decide_eq_true (hrest r hr)
    rw [List.filter_append, hkeep]
    simp

theorem mem_replaceVersion {rows : List ApprovedVersion} {row : ApprovedVersion} :
    row.version ∈ (replaceVersion rows row).map ApprovedVersion.version :=
  List.mem_map.2 ⟨row, List.mem_append_right _ (List.mem_singleton_self row), rfl⟩

/-- The version is read back from the joined text exactly if the name has no
colon. -/
theorem keyVersion_joinKey_iff {n v : String} : Db.keyVersion (joinKey n v) = v ↔ ':' ∉ n.toList := by
  rw [← Policies.keyPair_snd]
  refine ⟨fun h => ?_, fun h => by rw [Policies.keyPair_joinKey_iff.2 h]⟩
  rcases Policies.keyPair_cases (joinKey n v) with ⟨hplain, -⟩ | ⟨m, w, hm, hkey, hk⟩
  · by_cases hnv : n = v
    · rwa [joinKey, if_neg (not_not.2 hnv), ← hnv] at hplain
    · rw [joinKey, if_pos hnv] at hplain
      exact absurd (by simp) hplain
  · rw [hk] at h
    dsimp only at h
    subst h
    by_cases hnv : n = w
    · -- the version would be longer than itself
      rw [joinKey, if_neg (not_not.2 hnv)] at hkey
      have hlen := congrArg String.length hkey
      simp only [String.length_append] at hlen
      have hcolon : ":".length = 1 := by decide
      omega
    · rw [joinKey, if_pos hnv] at hkey
      have hlist := congrArg String.toList hkey
      simp only [String.toList_append, List.append_assoc] at hlist
      have heq := List.append_cancel_right hlist
      rw [String.toList_inj.1 heq]
      exact hm

theorem mem_policyVersions_add {db : Db} {now v n w : String} :
    w ∈ (db.addApprovedPolicy now v n).policyVersions ↔
      Db.keyVersion (joinKey (nameOr n v) v) = w ∨ w ∈ db.policyVersions := by
  have hmem : ∀ db : Db, w ∈ db.policyVersions ↔ ∃ key, ActiveKey db key ∧ Db.keyVersion key = w := by
    intro db
    rw [Policies.policyVersions_eq, List.mem_map]
    constructor
    · rintro ⟨pr, hpr, rfl⟩
      obtain ⟨key, hkey, rfl⟩ := Policies.mem_getApprovedPolicies.1 hpr
      exact ⟨key, hkey, (Policies.keyPair_snd key).symm⟩
    · rintro ⟨key, hkey, rfl⟩
      exact ⟨_, Policies.mem_getApprovedPolicies.2 ⟨key, hkey, rfl⟩, Policies.keyPair_snd key⟩
  rw [hmem, hmem]
  simp only [Policies.activeKey_add, Policies.policyKey_eq]
  constructor
  · rintro ⟨key, rfl | hkey, hw⟩
    · exact .inl hw
    · exact .inr ⟨key, hkey, hw⟩
  · rintro (hw | ⟨key, hkey, hw⟩)
    · exact ⟨_, .inl rfl, hw⟩
    · exact ⟨key, .inr hkey, hw⟩

variable {realText : Body → String}

/-- **When an approval request reports what it did**: for an agent always; for a
policy if its name has no colon or its version is approved already; for a model
if its row is written already; and for every request whose texts cannot be
stored. -/
theorem reports_iff {s : Store} (hs : s.Reachable realText) (e : Endpoint) (now : String) (body : Request) :
    Reports e s now body ↔
      ∀ v n, body.version.toString? = some v → body.name.toString? = some n → e.Right s now v n := by
  have honly : s.working = _ := hs.onlyInstances
  by_cases hnone : body.version.toString? = none ∨ body.name.toString? = none
  · obtain ⟨f, hf⟩ := e.approve_error hnone s now
    refine iff_of_true ⟨fun r hr => ?_, fun f _ => by rw [hf]⟩ fun v n hv hn => ?_
    · rw [hf] at hr
      cases hr
    · rcases hnone with h | h
      · cases h.symm.trans hv
      · cases h.symm.trans hn
  · obtain ⟨hv, hn⟩ := not_or.1 hnone
    obtain ⟨v, hv⟩ := Option.ne_none_iff_exists'.1 hv
    obtain ⟨n, hn⟩ := Option.ne_none_iff_exists'.1 hn
    obtain ⟨name, version⟩ := body
    obtain rfl := toString?_eq_some.1 hv
    obtain rfl := toString?_eq_some.1 hn
    have hstate := e.approve_state s now v n
    have hright : (∀ v' n', PyStr.toString? (.ofString v) = some v' → PyStr.toString? (.ofString n) = some n' →
        e.Right s now v' n') ↔ e.Right s now v n := by
      refine ⟨fun h => h v n hv hn, fun h v' n' hv' hn' => ?_⟩
      obtain rfl := Option.some.inj (hv.symm.trans hv')
      obtain rfl := Option.some.inj (hn.symm.trans hn')
      exact h
    rw [hright]
    cases e with
    | model =>
      have hresult := Endpoint.approve_model_result s now v n
      rw [Endpoint.Right, ← replaceVersion_eq_iff]
      constructor
      · intro h
        have htables := h.failure _ hresult
        rw [hstate, approvals, approvals] at htables
        have hmodels := (Prod.mk.inj htables).1
        rw [Store.committing] at hmodels
        dsimp only [Endpoint.add, Db.addApprovedModel] at hmodels
        rw [honly] at hmodels
        exact hmodels
      · intro h
        refine ⟨fun r hr => (nomatch hresult.symm.trans hr), fun f _ => ?_⟩
        rw [hstate, approvals, approvals, Store.committing]
        dsimp only [Endpoint.add, Db.addApprovedModel]
        rw [honly]
        exact congrArg (·, _, _) h
    | agent =>
      obtain ⟨r, hr⟩ := Endpoint.approve_agent_result s now v n
      refine iff_of_true ⟨fun _ _ => ⟨v, hv, ?_⟩, fun f hf => (nomatch hr.symm.trans hf)⟩ trivial
      rw [hstate, Endpoint.versions, Store.committing]
      exact mem_replaceVersion
    | policy =>
      obtain ⟨r, hr⟩ := Endpoint.approve_policy_result s now v n
      have hmem : v ∈ Endpoint.policy.versions (Endpoint.policy.approve s now ⟨.ofString n, .ofString v⟩).2.committed ↔
          Endpoint.policy.Right s now v n := by
        rw [hstate, Endpoint.versions, Store.committing, Endpoint.add, mem_policyVersions_add, keyVersion_joinKey_iff,
          Endpoint.Right, honly]
        rfl
      rw [← hmem]
      constructor
      · intro h
        obtain ⟨v', hv', hin⟩ := h.success r hr
        obtain rfl := Option.some.inj (hv.symm.trans hv')
        exact hin
      · exact fun h => ⟨fun _ _ => ⟨v, hv, h⟩, fun f hf => (nomatch hr.symm.trans hf)⟩

/-- A request leads from a storage that calls lead to to another one. -/
theorem approve_reachable {s : Store} (hs : s.Reachable realText) (e : Endpoint) (now : String) (body : Request) :
    (e.approve s now body).2.Reachable realText := by
  by_cases hnone : body.version.toString? = none ∨ body.name.toString? = none
  · obtain ⟨f, hf⟩ := e.approve_error hnone s now
    rwa [hf]
  · obtain ⟨hv, hn⟩ := not_or.1 hnone
    obtain ⟨v, hv⟩ := Option.ne_none_iff_exists'.1 hv
    obtain ⟨n, hn⟩ := Option.ne_none_iff_exists'.1 hn
    obtain ⟨name, version⟩ := body
    obtain rfl := toString?_eq_some.1 hv
    obtain rfl := toString?_eq_some.1 hn
    obtain ⟨db, ops, rfl⟩ := hs
    refine ⟨db, ops ++ [e.op now v n], ?_⟩
    rw [e.approve_state, Atomic.runOps, Atomic.runOps, List.foldl_append]
    cases e <;> rfl

/-- The approval of an agent on a new database. -/
def firstAgent : Request := ⟨.ofString "underwriter", .ofString "v1.0"⟩

theorem firstAgent_reports : Reports .agent (.opened .fresh) "2026-01-01T00:00:00Z" firstAgent :=
  (reports_iff (⟨.fresh, [], rfl⟩ : (Store.opened .fresh).Reachable fun _ => "") .agent _ _).2 fun _ _ _ _ => trivial

/-- The approval of a model on a new database. -/
def firstModel : Request := ⟨.ofString "credit_model", .ofString "v3.1"⟩

/-- **A performed approval is reported as a failure.** -/
theorem firstModel_fails : ¬ ∀ (s : Store), s.Reachable (fun _ => "") → ∀ e now body, Reports e s now body := by
  intro h
  have hrep := h (.opened .fresh) ⟨.fresh, [], rfl⟩ .model "2026-01-01T00:00:00Z" firstModel
  have htables := hrep.failure _ (Endpoint.approve_model_result _ _ "v3.1" "credit_model")
  have hstate := Endpoint.approve_state (.opened .fresh) "2026-01-01T00:00:00Z" "v3.1" "credit_model" .model
  have hbody : firstModel = ⟨.ofString "credit_model", .ofString "v3.1"⟩ := rfl
  rw [hbody, hstate] at htables
  have hmodels : [(⟨"v3.1", "credit_model", "2026-01-01T00:00:00Z"⟩ : ApprovedVersion)] = [] :=
    congrArg Prod.fst htables
  cases hmodels

end Approvals
end ProvableAi
