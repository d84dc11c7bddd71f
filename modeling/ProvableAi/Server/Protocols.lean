/-
# Protocols of a server

`POST /protocol/compile` and `POST /instance/create` of `server/main.py`, over
`compile` and `create_instance` of `GovernanceEngine` and the table `protocols`.

A spec is hashed by its canonical text; one whose metadata hold a lone surrogate
has no UTF-8 and is refused.  The engine keeps the specs it compiled, and one hash
for all requests, `_active_protocol_hash`.  A create request without a hash is to
use "the most recently compiled protocol"; it uses the active one, and a create
request with a hash makes that the active one, before it can fail
(`default_binding_iff`).

A server that was started again has the table and nothing else.  It finds a
protocol there, but what it keeps is the row, which has the spec under a key of
its own and no initial state; the `KeyError` is nobody's to catch
(`restart_loses_protocol`).
-/

import ProvableAi.Audit.Query
import ProvableAi.Lib.Lockstep
import ProvableAi.Server.Endpoints
import ProvableAi.Storage.Atomic

namespace ProvableAi
namespace Protocols

open Lockstep

/-! ### The engine -/

/-- `ProtocolCompileRequest`.  Its texts are pydantic's; the values of the metadata are any JSON. -/
structure ProtocolCompileRequest where
  states : List String
  initialState : String
  transitions : List (List (String × String))
  metadata : List (String × Body)

/-- A text of a request. -/
def text (s : String) : Body := .str (PyStr.ofString s)

/-- The spec that the endpoint compiles. -/
def ProtocolCompileRequest.spec (body : ProtocolCompileRequest) : Body :=
  .obj [(PyStr.ofString "states", .arr (body.states.map text)),
    (PyStr.ofString "initial_state", text body.initialState),
    (PyStr.ofString "transitions", .arr (body.transitions.map fun t =>
      .obj (t.map fun kv => (PyStr.ofString kv.1, text kv.2)))),
    (PyStr.ofString "metadata", .obj (body.metadata.map fun kv => (PyStr.ofString kv.1, kv.2)))]

/-- The text of the spec, if it has UTF-8. -/
def ProtocolCompileRequest.canonical (body : ProtocolCompileRequest) : Option String :=
  (Atomic.jsonText body.spec).toString?

/-- The hash of a spec. -/
def ProtocolCompileRequest.hash (body : ProtocolCompileRequest) : Option String := body.canonical.map sha256Hex

/-- An entry of `_protocols`: the spec that was compiled, or the row that `get_protocol` returned. -/
inductive Entry where
  | spec (body : ProtocolCompileRequest)
  | row (r : ProtocolRow)

/-- The keys of the dict. -/
def Entry.keys : Entry → List String
  | .spec _ => ["states", "initial_state", "transitions", "metadata"]
  | .row _ => ["id", "protocol_hash", "spec_json", "active", "created_at", "spec"]

/-- `spec["initial_state"]`. -/
def Entry.initialState : Entry → Except PyErr String
  | .spec body => .ok body.initialState
  | .row _ => .error (.keyError "initial_state")

/-- What a server keeps of its protocols and instances. -/
structure State where
  /-- The table `protocols`. -/
  stored : List ProtocolRow
  /-- `_protocols`. -/
  protocols : List (String × Entry)
  /-- `_instances`: the state and the protocol's hash. -/
  instances : List (String × String × String)
  /-- `_active_protocol_hash`. -/
  active : Option String

/-- A server over a database. -/
def start (stored : List ProtocolRow) : State := ⟨stored, [], [], none⟩

/-- `get_protocol`. -/
def getProtocol (stored : List ProtocolRow) (protocolHash : String) : Option ProtocolRow :=
  stored.find? fun r => r.protocolHash = protocolHash

/-- `register_protocol`. -/
def registerProtocol (stored : List ProtocolRow) (now protocolHash specJson : String) : List ProtocolRow :=
  if (getProtocol stored protocolHash).isSome then stored else stored ++ [⟨protocolHash, specJson, true, now⟩]

/-- `compile`. -/
def compile (s : State) (now : String) (body : ProtocolCompileRequest) : Except PyErr String × State :=
  match body.canonical with
  | none => (.error .unicodeEncodeError, s)
  | some canonical =>
    let protocolHash := sha256Hex canonical
    (.ok protocolHash,
      { s with
        stored := registerProtocol s.stored now protocolHash canonical
        protocols := (protocolHash, .spec body) :: s.protocols
        active := some protocolHash })

/-- `create_instance`: the state of the instance.  Its `INSERT OR IGNORE` gives no `created_at` and adds no row. -/
def createInstance (s : State) (instanceId : String) : Except PyErr String × State :=
  match Audit.given s.active with
  | none => (.error (.valueError "No protocol compiled. Call compile() first."), s)
  | some protocolHash =>
    if (s.instances.lookup instanceId).isSome then
      (.error (.valueError ("Instance '" ++ instanceId ++ "' already exists.")), s)
    else
      match s.protocols.lookup protocolHash with
      | none => (.error (.keyError protocolHash), s)
      | some spec =>
        match spec.initialState with
        | .error e => (.error e, s)
        | .ok state => (.ok state, { s with instances := (instanceId, state, protocolHash) :: s.instances })

/-! ### The endpoints -/

/-- `ProtocolCompileResponse`. -/
def compiledResponse (body : ProtocolCompileRequest) (protocolHash : String) : Response :=
  .json 200 (.obj [("protocol_hash", .str protocolHash), ("states", .arr (body.states.map .str)),
    ("initial_state", .str body.initialState),
    ("message", .str ("Protocol compiled. hash=" ++ slice 16 protocolHash ++ "..."))])

/-- `POST /protocol/compile`. -/
def compileProtocol (s : State) (now : String) (body : ProtocolCompileRequest) : Response × State :=
  match compile s now body with
  | (.ok protocolHash, s) => (compiledResponse body protocolHash, s)
  | (.error e, s) => (.failed 400 "COMPILE_ERROR" e.str [], s)

/-- `InstanceCreateResponse`. -/
def createdResponse (instanceId initialState protocolHash : String) : Response :=
  .json 200 (.obj [("instance_id", .str instanceId), ("initial_state", .str initialState),
    ("protocol_hash", .str protocolHash),
    ("message", .str ("Instance '" ++ instanceId ++ "' created in state '" ++ initialState ++ "'."))])

/-- The part of `POST /instance/create` after the lookup of the protocol. -/
def finishCreate (s : State) (traceId instanceId : String) : Response × State :=
  match createInstance s instanceId with
  | (.ok state, s) => (createdResponse instanceId state (s.active.getD ""), s)
  | (.error (.valueError msg), s) =>
    -- of the two messages only one says "already exists"
    if Audit.given s.active = none then
      (.failed 409 "PROTOCOL_REQUIRED" msg [("hint", .str "Compile a protocol first via POST /protocol/compile.")], s)
    else
      (.failed 409 "INSTANCE_ALREADY_EXISTS" msg
        [("hint", .str "Use a unique instance_id per workflow entity (loan, claim, decision).")], s)
  | (.error _, s) => (.internalError traceId, s)

/-- `POST /instance/create`. -/
def createEndpoint (s : State) (traceId instanceId : String) (protocolHash : Option String) : Response × State :=
  match Audit.given protocolHash with
  | none => finishCreate s traceId instanceId
  | some hash =>
    match getProtocol s.stored hash with
    | none => (.failed 404 "PROTOCOL_NOT_FOUND" ("Protocol " ++ slice 16 hash ++ "... not found. " ++
        "Compile it first via POST /protocol/compile.") [], s)
    | some stored =>
      finishCreate
        { s with
          active := some hash
          protocols := if (s.protocols.lookup hash).isSome then s.protocols else (hash, .row stored) :: s.protocols }
        traceId instanceId

/-- What is asked for. -/
inductive Call where
  | compile (body : ProtocolCompileRequest)
  | create (instanceId : String) (protocolHash : Option String)

/-- A request, with the clock. -/
structure Request where
  role : Role
  now : String
  traceId : String
  call : Call

/-- `require_role(…)`. -/
def Call.allowed : Call → List Role
  | compile _ => [.admin]
  | create .. => [.admin, .system]

/-- One request. -/
def step (s : State) (r : Request) : Response × State :=
  if r.role ∈ r.call.allowed then
    match r.call with
    | .compile body => compileProtocol s r.now body
    | .create instanceId protocolHash => createEndpoint s r.traceId instanceId protocolHash
  else (.forbidden r.role r.call.allowed, s)

/-! ### The requests so far -/

/-- What a history of requests says, on a database that holds the protocols of earlier servers. -/
structure History where
  /-- The protocols that were compiled, the latest first, each after its hash. -/
  compiled : List (String × ProtocolCompileRequest)
  /-- The hash that the last request named: the one it compiled, or a known one that it was to create under. -/
  named : Option String
  /-- The instances that were created. -/
  used : List String

/-- The instance of a create request is created: its id is new, and the protocol was compiled by this server. -/
def History.creates (t : History) (instanceId : String) : Prop :=
  instanceId ∉ t.used ∧ ∃ hash, t.named = some hash ∧ hash ∈ t.compiled.map Prod.fst

instance (t : History) (instanceId : String) : Decidable (t.creates instanceId) :=
  have : Decidable (∃ hash, t.named = some hash ∧ hash ∈ t.compiled.map Prod.fst) :=
    match h : t.named with
    | none => .isFalse (by rintro ⟨_, h', -⟩; cases h')
    | some hash => decidable_of_iff (hash ∈ t.compiled.map Prod.fst) (by simp)
  inferInstanceAs (Decidable (_ ∧ _))

/-- The history, an instance of it being created. -/
def History.create (t : History) (instanceId : String) : History :=
  if t.creates instanceId then { t with used := instanceId :: t.used } else t

/-- One more request. -/
def History.next (stored : List ProtocolRow) (t : History) (r : Request) : History :=
  if r.role ∉ r.call.allowed then t
  else match r.call with
    | .compile body =>
      match body.hash with
      | none => t
      | some hash => { t with compiled := (hash, body) :: t.compiled, named := some hash }
    | .create instanceId protocolHash =>
      match Audit.given protocolHash with
      | none => t.create instanceId
      | some hash =>
        if (getProtocol stored hash).isSome ∨ hash ∈ t.compiled.map Prod.fst then
          { t with named := some hash }.create instanceId
        else t

/-- A history. -/
def historyOf (stored : List ProtocolRow) (rs : List Request) : History := rs.foldl (History.next stored) ⟨[], none, []⟩

/-- The server after a history. -/
def after (stored : List ProtocolRow) (rs : List Request) : State := final step (start stored) rs

/-- What a server has of its history. -/
structure Matches (stored : List ProtocolRow) (s : State) (t : History) : Prop where
  active : s.active = t.named
  named_ne : t.named ≠ some ""
  known : ∀ hash, (getProtocol s.stored hash).isSome = true ↔
    (getProtocol stored hash).isSome = true ∨ hash ∈ t.compiled.map Prod.fst
  spec : ∀ hash body, t.compiled.lookup hash = some body → s.protocols.lookup hash = some (.spec body)
  row : ∀ hash, hash ∉ t.compiled.map Prod.fst → ∀ e, s.protocols.lookup hash = some e → ∃ r, e = .row r
  present : ∀ hash, t.named = some hash → (s.protocols.lookup hash).isSome = true
  used : ∀ i, (s.instances.lookup i).isSome = true ↔ i ∈ t.used
  hashes : ∀ kb ∈ t.compiled, kb.2.hash = some kb.1

theorem matches_start (stored : List ProtocolRow) : Matches stored (start stored) ⟨[], none, []⟩ where
  active := rfl
  named_ne := by simp
  known hash := by simp [start]
  spec hash body h := by simp at h
  row hash _ e h := by simp [start] at h
  present hash h := by simp at h
  used i := by simp [start]
  hashes kb h := by simp at h

section

variable {stored : List ProtocolRow} {s : State} {t : History}

/-- Of a created instance the response names the protocol and its initial state. -/
theorem createInstance_of_creates (h : Matches stored s t) {i : String} (hc : t.creates i) :
    ∃ hash body, t.named = some hash ∧ t.compiled.lookup hash = some body ∧
      createInstance s i = (.ok body.initialState, { s with instances := (i, body.initialState, hash) :: s.instances }) := by
  obtain ⟨hi, hash, hnamed, hmem⟩ := hc
  obtain ⟨body, hbody⟩ := Option.isSome_iff_exists.1 (Json.lookup_isSome_iff.2 hmem)
  have hne : hash ≠ "" := fun h0 => h.named_ne (h0 ▸ hnamed)
  have hactive : Audit.given s.active = some hash := by
    rw [h.active, hnamed, Audit.given, Option.filter_some, if_pos (by simpa using hne)]
  have hfree : ¬ (s.instances.lookup i).isSome = true := fun hs => hi ((h.used i).1 hs)
  refine ⟨hash, body, hnamed, hbody, ?_⟩
  rw [createInstance, hactive]
  simp only [if_neg hfree, h.spec hash body hbody, Entry.initialState]

/-- Otherwise nothing is created. -/
theorem createInstance_of_not_creates (h : Matches stored s t) {i : String} (hc : ¬ t.creates i) :
    ∃ e, createInstance s i = (.error e, s) := by
  rw [createInstance]
  cases hg : Audit.given s.active with
  | none => exact ⟨_, rfl⟩
  | some hash =>
    have hnamed : t.named = some hash := by
      rw [← h.active]
      exact (Option.filter_eq_some_iff.1 hg).1
    by_cases hused : (s.instances.lookup i).isSome = true
    · simp only [if_pos hused]
      exact ⟨_, rfl⟩
    · have hmem : hash ∉ t.compiled.map Prod.fst := fun hmem =>
        hc ⟨fun hi => hused ((h.used i).2 hi), hash, hnamed, hmem⟩
      obtain ⟨e, he⟩ := Option.isSome_iff_exists.1 (h.present hash hnamed)
      obtain ⟨r, rfl⟩ := h.row hash hmem e he
      exact ⟨.keyError "initial_state", by simp only [if_neg hused, he, Entry.initialState]⟩

/-- What the rest of `POST /instance/create` does. -/
theorem finishCreate_matches (h : Matches stored s t) (traceId i : String) :
    Matches stored (finishCreate s traceId i).2 (t.create i) := by
  by_cases hc : t.creates i
  · obtain ⟨hash, body, -, -, hcreate⟩ := createInstance_of_creates h hc
    rw [finishCreate, hcreate, History.create, if_pos hc]
    refine { h with used := fun j => ?_ }
    rw [Json.lookup_isSome_iff, List.map_cons, List.mem_cons, List.mem_cons, ← h.used j, Json.lookup_isSome_iff]
  · obtain ⟨e, he⟩ := createInstance_of_not_creates h hc
    rw [finishCreate, he, History.create, if_neg hc]
    cases e with
    | valueError msg => dsimp only; split <;> exact h
    | _ => exact h

theorem sha256Hex_ne_empty (t : String) : sha256Hex t ≠ "" := fun h0 => by
  have := sha256Hex_length t
  rw [h0] at this
  cases this

/-- A protocol is known after it is registered. -/
theorem isSome_getProtocol_register {rows : List ProtocolRow} {now protocolHash specJson hash : String} :
    (getProtocol (registerProtocol rows now protocolHash specJson) hash).isSome = true ↔
      (getProtocol rows hash).isSome = true ∨ hash = protocolHash := by
  by_cases hk : (getProtocol rows protocolHash).isSome = true
  · rw [registerProtocol, if_pos hk]
    exact ⟨.inl, fun h => h.elim id fun heq => heq ▸ hk⟩
  · rw [registerProtocol, if_neg hk, getProtocol, getProtocol, List.find?_append, Option.isSome_or, Bool.or_eq_true]
    refine or_congr Iff.rfl ?_
    by_cases heq : protocolHash = hash
    · simp [heq]
    · simp [heq, Ne.symm heq]

theorem matches_compile (h : Matches stored s t) (now : String) {body : ProtocolCompileRequest} {key canonical : String}
    (hne : key ≠ "") (hhash : body.hash = some key) :
    Matches stored
      { s with
        stored := registerProtocol s.stored now key canonical
        protocols := (key, .spec body) :: s.protocols
        active := some key }
      { t with compiled := (key, body) :: t.compiled, named := some key } := by
  refine ⟨rfl, by simpa using hne, fun hash => ?_, fun hash b hb => ?_, fun hash hn e he => ?_, fun hash hnamed => ?_,
    h.used, List.forall_mem_cons.2 ⟨hhash, h.hashes⟩⟩
  · rw [isSome_getProtocol_register, h.known, List.map_cons, List.mem_cons, or_assoc]
    exact or_congr Iff.rfl or_comm
  · rw [List.lookup_cons] at hb ⊢
    by_cases hk : hash = key
    · subst hk
      simp only [beq_self_eq_true] at hb ⊢
      rw [Option.some.inj hb]
    · rw [beq_false_of_ne hk] at hb ⊢
      exact h.spec hash b hb
  · rw [List.map_cons, List.mem_cons, not_or] at hn
    rw [List.lookup_cons, beq_false_of_ne hn.1] at he
    exact h.row hash hn.2 e he
  · obtain rfl := Option.some.inj hnamed
    simp

theorem matches_name (h : Matches stored s t) {hash : String} {row : ProtocolRow} (hne : hash ≠ "")
    (hknown : getProtocol s.stored hash = some row) :
    Matches stored
      { s with
        active := some hash
        protocols := if (s.protocols.lookup hash).isSome then s.protocols else (hash, .row row) :: s.protocols }
      { t with named := some hash } := by
  refine { h with active := rfl, named_ne := by simpa using hne, spec := ?_, row := ?_, present := ?_ }
  · intro k body hbody
    have hspec := h.spec k body hbody
    split
    · exact hspec
    · rename_i hnone
      have hk : k ≠ hash := by
        rintro rfl
        rw [hspec] at hnone
        exact hnone rfl
      rw [List.lookup_cons, beq_false_of_ne hk]
      exact hspec
  · intro k hk e he
    dsimp only at he
    split at he
    · exact h.row k hk e he
    · rw [List.lookup_cons] at he
      split at he
      · exact ⟨row, (Option.some.inj he).symm⟩
      · exact h.row k hk e he
  · intro k hnamed
    obtain rfl := Option.some.inj hnamed
    dsimp only
    split
    · assumption
    · simp

/-- **The server keeps to its history.** -/
theorem matches_step (h : Matches stored s t) (r : Request) : Matches stored (step s r).2 (t.next stored r) := by
  by_cases hrole : r.role ∈ r.call.allowed
  · rw [step, if_pos hrole, History.next, if_neg (not_not.2 hrole)]
    cases r.call with
    | compile body =>
      cases hcanonical : body.canonical with
      | none => simpa [compileProtocol, compile, ProtocolCompileRequest.hash, hcanonical] using h
      | some canonical =>
        have hhash : body.hash = some (sha256Hex canonical) := by
          rw [ProtocolCompileRequest.hash, hcanonical, Option.map_some]
        simp only [compileProtocol, compile, hcanonical, hhash]
        exact matches_compile h r.now (sha256Hex_ne_empty canonical) hhash
    | create i protocolHash =>
      simp only [createEndpoint]
      cases hg : Audit.given protocolHash with
      | none => exact finishCreate_matches h r.traceId i
      | some hash =>
        have hne : hash ≠ "" := by simpa [Audit.given] using (Option.filter_eq_some_iff.1 hg).2
        dsimp only
        cases hrow : getProtocol s.stored hash with
        | none =>
          have hknown := h.known hash
          rw [hrow] at hknown
          simp only [if_neg fun hk => absurd (hknown.2 hk) (by simp)]
          exact h
        | some row =>
          have hknown := (h.known hash).1 (by rw [hrow]; rfl)
          simp only [if_pos hknown]
          exact finishCreate_matches (matches_name h hne hrow) r.traceId i
  · rw [step, if_neg hrole, History.next, if_pos hrole]
    exact h

theorem matches_after (stored : List ProtocolRow) (rs : List Request) :
    Matches stored (after stored rs) (historyOf stored rs) := by
  have hrun : ∀ (rs : List Request) {s : State} {t : History}, Matches stored s t →
      Matches stored (final step s rs) (rs.foldl (History.next stored) t) := by
    intro rs
    induction rs with
    | nil => exact fun h => h
    | cons r rs ih => exact fun h => ih (matches_step h r)
  exact hrun rs (matches_start stored)

end

/-! ### The default protocol -/

/-- An instance that is created without a hash is bound to the latest compiled protocol and starts where that says. -/
def DefaultBinding (stored : List ProtocolRow) (rs : List Request) : Prop :=
  ∀ before r rest i protocolHash, rs = before ++ r :: rest → r.call = .create i protocolHash →
    Audit.given protocolHash = none → ∀ state hash, (step (after stored before) r).1 = createdResponse i state hash →
      ∃ latest body, (historyOf stored before).compiled.head? = some (latest, body) ∧ hash = latest ∧
        state = body.initialState ∧ (step (after stored before) r).2.instances.lookup i = some (state, hash)

/-- Where a new instance is to be created without a hash, the protocol that was named last, if this server compiled it,
is the one that was compiled last. -/
def NamedIsLatest (stored : List ProtocolRow) (rs : List Request) : Prop :=
  ∀ before r rest i protocolHash, rs = before ++ r :: rest → r.call = .create i protocolHash →
    Audit.given protocolHash = none → r.role ∈ r.call.allowed → (historyOf stored before).creates i →
      (historyOf stored before).named = (historyOf stored before).compiled.head?.map Prod.fst

theorem createdResponse_inj {i state hash state' hash' : String}
    (h : createdResponse i state hash = createdResponse i state' hash') : state = state' ∧ hash = hash' := by
  simp only [createdResponse, Response.json.injEq, true_and, Json.obj.injEq, List.cons.injEq, Prod.mk.injEq,
    Json.str.injEq] at h
  exact ⟨h.1, h.2.1⟩

/-- A response to a create request without a hash. -/
theorem step_default {s : State} {r : Request} {i : String} {protocolHash : Option String}
    (hcall : r.call = .create i protocolHash) (hdefault : Audit.given protocolHash = none)
    (hrole : r.role ∈ r.call.allowed) : step s r = finishCreate s r.traceId i := by
  rw [step, if_pos hrole, hcall]
  simp only [createEndpoint, hdefault]

/-- A failed creation is not answered as a creation. -/
theorem finishCreate_not_created {s : State} {traceId i state hash : String} {e : PyErr}
    (h : createInstance s i = (.error e, s)) : (finishCreate s traceId i).1 ≠ createdResponse i state hash := by
  have hstatus : ∀ {status : ℕ} {j : Json}, status ≠ 200 → Response.json status j ≠ createdResponse i state hash := by
    intro status j hne heq
    exact hne (Response.json.inj heq).1
  rw [finishCreate, h]
  cases e with
  | valueError msg => dsimp only; split <;> exact hstatus (by decide)
  | _ => exact hstatus (by decide)

theorem DefaultBinding.named {stored : List ProtocolRow} {rs : List Request} (h : DefaultBinding stored rs) :
    NamedIsLatest stored rs := by
  intro before r rest i protocolHash hrs hcall hdefault hrole hc
  have hmatch := matches_after stored before
  obtain ⟨hash, body, hnamed, hbody, hcreate⟩ := createInstance_of_creates hmatch hc
  have hstep := step_default (s := after stored before) hcall hdefault hrole
  have hactive : (after stored before).active = some hash := hmatch.active.trans hnamed
  obtain ⟨latest, last, hhead, rfl, -, -⟩ := h before r rest i protocolHash hrs hcall hdefault body.initialState hash (by
    rw [hstep, finishCreate, hcreate]
    simp only [hactive, Option.getD_some])
  rw [hnamed, hhead, Option.map_some]

theorem NamedIsLatest.default {stored : List ProtocolRow} {rs : List Request} (h : NamedIsLatest stored rs) :
    DefaultBinding stored rs := by
  intro before r rest i protocolHash hrs hcall hdefault state hash hresponse
  have hmatch := matches_after stored before
  have hrole : r.role ∈ r.call.allowed := by
    by_contra hrole
    rw [step, if_neg hrole] at hresponse
    cases (Response.json.inj hresponse).1
  have hstep := step_default (s := after stored before) hcall hdefault hrole
  by_cases hc : (historyOf stored before).creates i
  · obtain ⟨hash', body, hnamed, hbody, hcreate⟩ := createInstance_of_creates hmatch hc
    have hactive : (after stored before).active = some hash' := hmatch.active.trans hnamed
    rw [hstep, finishCreate, hcreate] at hresponse
    simp only [hactive, Option.getD_some] at hresponse
    obtain ⟨rfl, rfl⟩ := createdResponse_inj hresponse
    have hlast := h before r rest i protocolHash hrs hcall hdefault hrole hc
    obtain ⟨⟨latest, last⟩, hhead, hlatest⟩ := Option.map_eq_some_iff.1 (hlast.symm.trans hnamed)
    dsimp only at hlatest
    subst hlatest
    refine ⟨latest, last, hhead, rfl, ?_, ?_⟩
    · obtain ⟨tail, htail⟩ := List.head?_eq_some_iff.1 hhead
      rw [htail, List.lookup_cons, beq_self_eq_true] at hbody
      rw [Option.some.inj hbody]
    · rw [hstep, finishCreate, hcreate]
      simp
  · obtain ⟨e, he⟩ := createInstance_of_not_creates hmatch hc
    rw [hstep] at hresponse
    exact absurd hresponse (finishCreate_not_created he)

/-- **The default protocol is the most recently compiled one exactly if no request names another one in between.** -/
theorem default_binding_iff (stored : List ProtocolRow) (rs : List Request) :
    DefaultBinding stored rs ↔ NamedIsLatest stored rs :=
  ⟨DefaultBinding.named, NamedIsLatest.default⟩

/-- A workflow that starts in the given state. -/
def workflow (initialState : String) : ProtocolCompileRequest := ⟨[initialState], initialState, [], []⟩

/-- The text of such a workflow. -/
def workflowText (initialState : String) : String :=
  "\x7b\"initial_state\":\"" ++ initialState ++ "\",\"metadata\":\x7b\x7d,\"states\":[\"" ++ initialState ++
    "\"],\"transitions\":[]\x7d"

theorem canonical_received : (workflow "received").canonical = some (workflowText "received") := by decide +kernel

theorem canonical_open : (workflow "open").canonical = some (workflowText "open") := by decide +kernel

/-- Two workflows, an instance of the first by its hash, and an instance without a hash. -/
def twoWorkflows : List Request :=
  [⟨.admin, "", "", .compile (workflow "received")⟩, ⟨.admin, "", "", .compile (workflow "open")⟩,
    ⟨.system, "", "", .create "loan_1" (some (sha256Hex (workflowText "received")))⟩]

theorem workflow_hashes_ne : sha256Hex (workflowText "received") ≠ sha256Hex (workflowText "open") := by
  decide +kernel

/-- The instance without a hash gets the first of the two workflows. -/
theorem default_after_named :
    ¬ DefaultBinding [] (twoWorkflows ++ [⟨.system, "", "", .create "loan_2" none⟩]) := by
  intro h
  have hlatest := h.named twoWorkflows ⟨.system, "", "", .create "loan_2" none⟩ [] "loan_2" none rfl rfl rfl (by decide)
  have hne := workflow_hashes_ne
  have hlen := sha256Hex_length (workflowText "received")
  have hreceived : (workflow "received").hash = some (sha256Hex (workflowText "received")) := by
    rw [ProtocolCompileRequest.hash, canonical_received, Option.map_some]
  have hopen : (workflow "open").hash = some (sha256Hex (workflowText "open")) := by
    rw [ProtocolCompileRequest.hash, canonical_open, Option.map_some]
  revert hlatest
  rw [twoWorkflows]
  generalize sha256Hex (workflowText "received") = a at *
  generalize sha256Hex (workflowText "open") = b at *
  have ha : a ≠ "" := by rintro rfl; cases hlen
  have hgiven : Audit.given (some a) = some a := by rw [Audit.given, Option.filter_some, if_pos (by simpa using ha)]
  have hhistory : historyOf [] [⟨.admin, "", "", .compile (workflow "received")⟩,
      ⟨.admin, "", "", .compile (workflow "open")⟩, ⟨.system, "", "", .create "loan_1" (some a)⟩] =
      ⟨[(b, workflow "open"), (a, workflow "received")], some a, ["loan_1"]⟩ := by
    simp [historyOf, History.next, Call.allowed, hreceived, hopen, hgiven, History.create, History.creates]
  rw [hhistory]
  intro hlatest
  have hcreates : History.creates ⟨[(b, workflow "open"), (a, workflow "received")], some a, ["loan_1"]⟩ "loan_2" :=
    ⟨by simp, a, rfl, by simp⟩
  exact hne (Option.some.inj (hlatest hcreates))

/-! ### Starting again -/

/-- The process ends and another one starts over the database. -/
def restart (s : State) : State := start s.stored

/-- The spec, compiled by one server, is there for the next one: an instance under its hash is created in its initial
state, whether the server that compiled it is asked or one that was started after it. -/
def SurvivesRestart (s : State) (now traceId : String) (body : ProtocolCompileRequest) (instanceId : String) : Prop :=
  ∃ hash, (compileProtocol s now body).1 = compiledResponse body hash ∧
    (createEndpoint (compileProtocol s now body).2 traceId instanceId (some hash)).1 =
      createdResponse instanceId body.initialState hash ∧
    (createEndpoint (restart (compileProtocol s now body).2) traceId instanceId (some hash)).1 =
      createdResponse instanceId body.initialState hash

section

variable {s : State} {now traceId i hash : String} {body : ProtocolCompileRequest}

theorem compileProtocol_eq {canonical : String} (h : body.canonical = some canonical) :
    compileProtocol s now body = (compiledResponse body (sha256Hex canonical),
      { s with
        stored := registerProtocol s.stored now (sha256Hex canonical) canonical
        protocols := (sha256Hex canonical, .spec body) :: s.protocols
        active := some (sha256Hex canonical) }) := by
  rw [compileProtocol, compile, h]

theorem compiledResponse_inj {hash' : String} (h : compiledResponse body hash = compiledResponse body hash') :
    hash = hash' := by
  simp only [compiledResponse, Response.json.injEq, true_and, Json.obj.injEq, List.cons.injEq, Prod.mk.injEq,
    Json.str.injEq] at h
  exact h.1

theorem given_sha256Hex (t : String) : Audit.given (some (sha256Hex t)) = some (sha256Hex t) := by
  rw [Audit.given, Option.filter_some, if_pos (by simpa using sha256Hex_ne_empty t)]

/-- The server that compiled the spec creates a new instance. -/
theorem create_without_restart {canonical : String} (h : body.canonical = some canonical)
    (hi : (s.instances.lookup i).isSome = false) :
    (createEndpoint (compileProtocol s now body).2 traceId i (some (sha256Hex canonical))).1 =
      createdResponse i body.initialState (sha256Hex canonical) := by
  have hknown : (getProtocol (registerProtocol s.stored now (sha256Hex canonical) canonical)
      (sha256Hex canonical)).isSome = true := isSome_getProtocol_register.2 (.inr rfl)
  obtain ⟨row, hrow⟩ := Option.isSome_iff_exists.1 hknown
  rw [compileProtocol_eq h, createEndpoint, given_sha256Hex]
  simp only [hrow, List.lookup_cons, beq_self_eq_true, Option.isSome_some, if_true]
  simp [finishCreate, createInstance, given_sha256Hex, hi, Entry.initialState]

/-- A server that was started after it answers with an internal error. -/
theorem create_after_restart {canonical : String} (h : body.canonical = some canonical) :
    (createEndpoint (restart (compileProtocol s now body).2) traceId i (some (sha256Hex canonical))).1 =
      .internalError traceId := by
  have hknown : (getProtocol (registerProtocol s.stored now (sha256Hex canonical) canonical)
      (sha256Hex canonical)).isSome = true := isSome_getProtocol_register.2 (.inr rfl)
  obtain ⟨row, hrow⟩ := Option.isSome_iff_exists.1 hknown
  rw [compileProtocol_eq h, createEndpoint, given_sha256Hex]
  simp only [restart, start, hrow]
  simp [finishCreate, createInstance, given_sha256Hex, Entry.initialState]

/-- **No protocol survives a restart**: for every spec that compiles and every new instance, the server that compiled
the spec creates the instance, and the next one does not. -/
theorem restart_loses_protocol (s : State) (now traceId : String) (body : ProtocolCompileRequest) (i : String)
    (haccepted : body.canonical.isSome = true) (hi : (s.instances.lookup i).isSome = false) :
    (∃ hash, (compileProtocol s now body).1 = compiledResponse body hash ∧
      (createEndpoint (compileProtocol s now body).2 traceId i (some hash)).1 =
        createdResponse i body.initialState hash) ∧
    ¬ SurvivesRestart s now traceId body i := by
  obtain ⟨canonical, h⟩ := Option.isSome_iff_exists.1 haccepted
  refine ⟨⟨sha256Hex canonical, by rw [compileProtocol_eq h], create_without_restart h hi⟩, ?_⟩
  rintro ⟨hash, hcompiled, -, hcreated⟩
  have hhash : sha256Hex canonical = hash := by
    rw [compileProtocol_eq h] at hcompiled
    exact compiledResponse_inj hcompiled
  rw [← hhash, create_after_restart h] at hcreated
  cases (Response.json.inj hcreated).1

end

theorem restart_loses_received :
    (∃ hash, (compileProtocol (start []) "2026-01-01" (workflow "received")).1 =
        compiledResponse (workflow "received") hash ∧
      (createEndpoint (compileProtocol (start []) "2026-01-01" (workflow "received")).2 "t" "loan_1" (some hash)).1 =
        createdResponse "loan_1" "received" hash) ∧
    ¬ SurvivesRestart (start []) "2026-01-01" "t" (workflow "received") "loan_1" :=
  restart_loses_protocol (start []) "2026-01-01" "t" (workflow "received") "loan_1" (by rw [canonical_received]; rfl) rfl

/-- The workflow is gone after a restart. -/
theorem received_lost : ¬ SurvivesRestart (start []) "2026-01-01" "t" (workflow "received") "loan_1" := by
  rintro ⟨hash, hcompiled, -, hcreated⟩
  have hhash : sha256Hex (workflowText "received") = hash := by
    rw [compileProtocol_eq canonical_received] at hcompiled
    exact compiledResponse_inj hcompiled
  rw [← hhash, create_after_restart canonical_received] at hcreated
  cases (Response.json.inj hcreated).1

end Protocols
end ProvableAi
