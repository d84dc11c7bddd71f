/-
# Keys and roles

`server/auth.py`: `_load_api_keys` reads the keys and their roles from the text of
`ZORYNEX_API_KEYS`, `_resolve` finds the role of a key and `require_role` refuses a
request without one of the roles that an endpoint allows.

The text is read back exactly where no key has a comma, a colon or white space
around it (`load_written_iff`), and a key has the role of its last pair
(`granted_iff`).

`roles_confine`: along every run, whoever has no admin key changes no approval, whoever
has no admin or system key changes no row of the ledger, and a request that is
refused leaves no trace in any other answer.
-/

import ProvableAi.Lib.Joined
import ProvableAi.Server.Isolation

namespace ProvableAi
namespace Auth

/-! ### The keys -/

/-- `s.strip()`. -/
def strip (cs : List Char) : List Char := ((cs.dropWhile isSpace).reverse.dropWhile isSpace).reverse

/-- `VALID_ROLES`. -/
def validRole : String → Option Role
  | "admin" => some .admin
  | "auditor" => some .auditor
  | "system" => some .system
  | _ => none

/-- What a piece between two commas gives. -/
inductive Pair where
  | skipped
  | pair (key : List Char) (role : Role)
  | invalid (key : List Char) (role : String)
  deriving DecidableEq

/-- The body of the loop; `role.lower()` on the ASCII letters, which decides whether the role is valid. -/
def readPair (piece : List Char) : Pair :=
  let pair := strip piece
  if ':' ∉ pair then .skipped
  else
    let key := strip (pair.takeWhile (· ≠ ':'))
    let role := lower (String.ofList (strip (pair.dropWhile (· ≠ ':')).tail))
    if key = [] then .skipped
    else
      match validRole role with
      | some r => .pair key r
      | none => .invalid key role

/-- `keys[key] = role`: the pair that was set last comes first. -/
def addPair (keys : List (String × Role)) (piece : List Char) : Except PyErr (List (String × Role)) :=
  match readPair piece with
  | .skipped => .ok keys
  | .pair key role => .ok ((String.ofList key, role) :: keys)
  | .invalid key role => .error (.valueError ("Invalid role '" ++ role ++ "' for key '" ++ String.ofList (key.take 4) ++
      "...' in ZORYNEX_API_KEYS. Valid: ['admin', 'auditor', 'system']"))

/-- `_load_api_keys`. -/
def loadApiKeys (raw : String) : Except PyErr (List (String × Role)) := do
  let keys ← (raw.toList.splitOn ',').foldlM addPair []
  if keys = [] then .error (.valueError "ZORYNEX_API_KEYS produced no valid key:role pairs.") else .ok keys

/-- The default, and what is read leniently. -/
example : loadApiKeys "dev-key:admin" = .ok [("dev-key", .admin)] ∧
    loadApiKeys " k1 : Admin ,, k2:auditor,k1:system" = .ok [("k1", .system), ("k2", .auditor), ("k1", .admin)] := by
  decide +kernel

/-! ### Requests -/

/-- `AuthContext`. -/
structure AuthContext where
  apiKey : String
  role : Role
  keyId : String

/-- `_resolve`. -/
def resolve (keys : List (String × Role)) (apiKey : Option String) : Option AuthContext := do
  let key ← apiKey
  if key = "" then none
  else
    let role ← keys.lookup key
    some ⟨key, role, slice 8 key ++ "..."⟩

/-- The 401 of `require_role`. -/
def unauthorized : Response :=
  .failed 401 "UNAUTHORIZED" "Missing or invalid X-API-Key header."
    [("hint", .str "Include a valid API key in the X-API-Key header.")]

/-- `require_role`. -/
def requireRole (keys : List (String × Role)) (allowed : List Role) (apiKey : Option String) : Except Response AuthContext :=
  match resolve keys apiKey with
  | none => .error unauthorized
  | some ctx => if ctx.role ∈ allowed then .ok ctx else .error (.forbidden ctx.role allowed)

/-- A request with the text of its `X-API-Key` header. -/
structure HttpRequest where
  apiKey : Option String
  tenantId : String
  traceId : String
  env : CallEnv
  endpoint : Endpoint

/-- The request once its role is known. -/
def HttpRequest.withRole (r : HttpRequest) (role : Role) : Request := ⟨role, r.tenantId, r.traceId, r.env, r.endpoint⟩

/-- An endpoint behind `Depends(require_role(…))`. -/
def serve (keys : List (String × Role)) (signer : Signer) (s : Server) (r : HttpRequest) : Response × Server :=
  match requireRole keys r.endpoint.allowed r.apiKey with
  | .error response => (response, s)
  | .ok ctx => s.handle signer (r.withRole ctx.role)

/-- `require_role` lets the request pass. -/
def passes (keys : List (String × Role)) (r : HttpRequest) : Bool :=
  (requireRole keys r.endpoint.allowed r.apiKey).toOption.isSome

/-! ### What the text says -/

/-- The last pair of the text with the key has the role. -/
def Granted (raw key : String) (role : Role) : Prop :=
  ∃ before piece after, raw.toList.splitOn ',' = before ++ piece :: after ∧ readPair piece = .pair key.toList role ∧
    ∀ p ∈ after, ∀ role', readPair p ≠ .pair key.toList role'

/-- `key.strip() == key`, no separator in it, not empty. -/
structure Plain (key : String) : Prop where
  ne : key.toList ≠ []
  stripped : strip key.toList = key.toList
  comma : ',' ∉ key.toList
  colon : ':' ∉ key.toList

/-- A dict of keys as the text of the variable. -/
def written (keys : List (String × Role)) : String :=
  String.ofList ([','].intercalate (keys.map fun k => k.1.toList ++ ':' :: k.2.value.toList))

/-! ### Reading a piece -/

theorem strip_ends (cs : List Char) :
    (∀ c ∈ (strip cs).head?, isSpace c = false) ∧ ∀ c ∈ (strip cs).getLast?, isSpace c = false := by
  have hdrop : ∀ ds : List Char, ∀ c ∈ (ds.dropWhile isSpace).head?, isSpace c = false := by
    intro ds c hc
    have hnot := List.head?_dropWhile_not isSpace ds
    rw [Option.mem_def] at hc
    rwa [hc] at hnot
  constructor
  · intro c hc
    refine hdrop cs c ?_
    rw [strip, List.head?_reverse, Option.mem_def] at hc
    obtain ⟨before, hbefore⟩ := List.dropWhile_suffix (l := (cs.dropWhile isSpace).reverse) isSpace
    have hne : (cs.dropWhile isSpace).reverse.dropWhile isSpace ≠ [] := by
      intro h
      rw [h] at hc
      cases hc
    rw [Option.mem_def, ← List.getLast?_reverse, ← hbefore, List.getLast?_append, hc]
    rfl
  · intro c hc
    rw [strip, List.getLast?_reverse] at hc
    exact hdrop _ c hc

theorem strip_of_ends {cs : List Char} (hhead : ∀ c ∈ cs.head?, isSpace c = false)
    (hlast : ∀ c ∈ cs.getLast?, isSpace c = false) : strip cs = cs := by
  have hdrop : ∀ ds : List Char, (∀ c ∈ ds.head?, isSpace c = false) → ds.dropWhile isSpace = ds := by
    intro ds h
    cases ds with
    | nil => rfl
    | cons d ds => rw [List.dropWhile_cons_of_neg (by rw [h d rfl]; exact Bool.false_ne_true)]
  rw [strip, hdrop cs hhead, hdrop cs.reverse (by rwa [List.head?_reverse]), List.reverse_reverse]

theorem mem_of_mem_strip {c : Char} {cs : List Char} (h : c ∈ strip cs) : c ∈ cs := by
  rw [strip, List.mem_reverse] at h
  exact (List.dropWhile_suffix isSpace).subset (List.mem_reverse.1 ((List.dropWhile_suffix isSpace).subset h))

/-- A key that is read is plain. -/
theorem plain_of_readPair {piece : List Char} {key : String} {role : Role} (h : readPair piece = .pair key.toList role)
    (hcomma : ',' ∉ piece) : Plain key := by
  unfold readPair at h
  dsimp only at h
  split_ifs at h with hcolon hne
  split at h
  · obtain ⟨hkey, -⟩ := Pair.pair.inj h
    refine ⟨hkey ▸ hne, ?_, fun hc => ?_, fun hc => ?_⟩
    · rw [← hkey]
      exact strip_of_ends (strip_ends _).1 (strip_ends _).2
    · rw [← hkey] at hc
      exact hcomma (mem_of_mem_strip ((List.takeWhile_prefix _).subset (mem_of_mem_strip hc)))
    · rw [← hkey] at hc
      have hstop := List.mem_takeWhile_imp (mem_of_mem_strip hc)
      simp at hstop
  · cases h

/-- The pair that is written for a plain key is read back. -/
theorem readPair_written {key : String} (h : Plain key) (role : Role) :
    readPair (key.toList ++ ':' :: role.value.toList) = .pair key.toList role := by
  obtain ⟨hvalue, hrole, hlast⟩ : strip role.value.toList = role.value.toList ∧
      validRole (lower (String.ofList role.value.toList)) = some role ∧
      isSpace ((':' :: role.value.toList).getLast (by simp)) = false := by
    cases role <;> decide +kernel
  have hpiece : strip (key.toList ++ ':' :: role.value.toList) = key.toList ++ ':' :: role.value.toList := by
    refine strip_of_ends (fun c hc => ?_) (fun c hc => ?_)
    · have hends := (strip_ends key.toList).1
      rw [h.stripped] at hends
      rw [List.head?_append_of_ne_nil _ h.ne] at hc
      exact hends c hc
    · rw [List.getLast?_append_of_ne_nil _ (by simp), List.getLast?_eq_some_getLast (by simp)] at hc
      obtain rfl := Option.some.inj hc
      exact hlast
  have hall : ∀ c ∈ key.toList, (decide (c ≠ ':')) = true := fun c hc => by
    rw [decide_eq_true_eq]
    rintro rfl
    exact h.colon hc
  have htake : (key.toList ++ ':' :: role.value.toList).takeWhile (fun c => decide (c ≠ ':')) = key.toList := by
    rw [List.takeWhile_append_of_pos hall]
    simp
  have hdrop : (key.toList ++ ':' :: role.value.toList).dropWhile (fun c => decide (c ≠ ':')) = ':' :: role.value.toList := by
    rw [List.dropWhile_append_of_pos hall]
    simp
  have hcolon : ¬ ':' ∉ key.toList ++ ':' :: role.value.toList := by simp
  unfold readPair
  simp only [hpiece, htake, hdrop, h.stripped, List.tail_cons, hvalue, hrole, h.ne, if_false, if_neg hcolon]

/-! ### The loop -/

/-- The pair of a piece. -/
def pairOf (piece : List Char) : Option (String × Role) :=
  match readPair piece with
  | .pair key role => some (String.ofList key, role)
  | _ => none

theorem pairOf_eq_some {piece : List Char} {key : String} {role : Role} :
    pairOf piece = some (key, role) ↔ readPair piece = .pair key.toList role := by
  rw [pairOf]
  cases readPair piece with
  | pair k r =>
    simp only [Option.some.injEq, Prod.mk.injEq, Pair.pair.injEq]
    exact and_congr_left fun _ => ⟨fun h => by rw [← h, String.toList_ofList], fun h => by rw [h, String.ofList_toList]⟩
  | _ => simp

/-- The loop over the pieces. -/
theorem foldlM_addPair {pieces : List (List Char)} : ∀ {keys loaded : List (String × Role)},
    pieces.foldlM addPair keys = .ok loaded ↔
      (∀ p ∈ pieces, ∀ key role, readPair p ≠ .invalid key role) ∧ loaded = (pieces.filterMap pairOf).reverse ++ keys := by
  induction pieces with
  | nil =>
    intro keys loaded
    simp [pure, Except.pure, eq_comm]
  | cons p pieces ih =>
    intro keys loaded
    rw [List.foldlM_cons, bind_eq_ok_iff, List.forall_mem_cons, List.filterMap_cons]
    cases hp : readPair p with
    | skipped => simp [addPair, pairOf, hp, ih]
    | pair k r => simp [addPair, pairOf, hp, ih]
    | invalid k r => simp [addPair, hp]

theorem loadApiKeys_eq_ok {raw : String} {keys : List (String × Role)} : loadApiKeys raw = .ok keys ↔
    (∀ p ∈ raw.toList.splitOn ',', ∀ key role, readPair p ≠ .invalid key role) ∧ keys ≠ [] ∧
      keys = ((raw.toList.splitOn ',').filterMap pairOf).reverse := by
  rw [loadApiKeys, bind_eq_ok_iff]
  simp only [foldlM_addPair, List.append_nil]
  constructor
  · rintro ⟨loaded, ⟨hvalid, rfl⟩, h⟩
    split_ifs at h with hne
    obtain rfl := Except.ok.inj h
    exact ⟨hvalid, hne, rfl⟩
  · rintro ⟨hvalid, hne, rfl⟩
    exact ⟨_, ⟨hvalid, rfl⟩, if_neg hne⟩

/-- The last pair of the pieces with the key. -/
def LastPair (pieces : List (List Char)) (key : String) (role : Role) : Prop :=
  ∃ before piece after, pieces = before ++ piece :: after ∧ readPair piece = .pair key.toList role ∧
    ∀ p ∈ after, ∀ role', readPair p ≠ .pair key.toList role'

theorem lastPair_cons {p : List Char} {pieces : List (List Char)} {key : String} {role : Role} :
    LastPair (p :: pieces) key role ↔ LastPair pieces key role ∨
      readPair p = .pair key.toList role ∧ ∀ q ∈ pieces, ∀ role', readPair q ≠ .pair key.toList role' := by
  constructor
  · rintro ⟨before, piece, after, h, hpair, hafter⟩
    cases before with
    | nil =>
      obtain ⟨rfl, rfl⟩ := List.cons.inj h
      exact .inr ⟨hpair, hafter⟩
    | cons b before =>
      obtain ⟨-, h⟩ := List.cons.inj h
      exact .inl ⟨before, piece, after, h, hpair, hafter⟩
  · rintro (⟨before, piece, after, rfl, hpair, hafter⟩ | ⟨hpair, hafter⟩)
    · exact ⟨p :: before, piece, after, rfl, hpair, hafter⟩
    · exact ⟨[], p, pieces, rfl, hpair, hafter⟩

/-- **The pair that was set last** is the one that a lookup finds. -/
theorem lookup_pairs {pieces : List (List Char)} {key : String} {role : Role} :
    (pieces.filterMap pairOf).reverse.lookup key = some role ↔ LastPair pieces key role := by
  induction pieces with
  | nil => simp [LastPair]
  | cons p pieces ih =>
    have hnone : (pieces.filterMap pairOf).reverse.lookup key = none ↔
        ∀ q ∈ pieces, ∀ role', readPair q ≠ .pair key.toList role' := by
      rw [List.lookup_eq_none_iff]
      simp only [List.mem_reverse, List.mem_filterMap, forall_exists_index, and_imp, Prod.forall, bne_iff_ne]
      constructor
      · exact fun h q hq role' hp => h key role' q hq (pairOf_eq_some.2 hp) rfl
      · rintro h k r q hq hp rfl
        exact h q hq r (pairOf_eq_some.1 hp)
    have hcons : (p :: pieces).filterMap pairOf = (pairOf p).toList ++ pieces.filterMap pairOf := by
      cases hp : pairOf p <;> simp [hp]
    rw [hcons, List.reverse_append, List.lookup_append, lastPair_cons, Option.or_eq_some_iff, ih, hnone,
      ← pairOf_eq_some]
    refine or_congr_right ⟨fun h => ⟨?_, h.1⟩, fun h => ⟨h.2, ?_⟩⟩
    · cases hp : pairOf p with
      | none => simp [hp] at h
      | some kr =>
        obtain ⟨k, r⟩ := kr
        have hlookup := h.2
        rw [hp] at hlookup
        rw [Option.toList_some, List.reverse_singleton, List.lookup_cons] at hlookup
        split at hlookup
        · rename_i hk
          rw [beq_iff_eq.1 hk, Option.some.inj hlookup]
        · cases hlookup
    · rw [h.1]
      simp

/-- **A key has the role of its last pair.** -/
theorem granted_iff {raw key : String} {keys : List (String × Role)} (h : loadApiKeys raw = .ok keys) (role : Role) :
    Granted raw key role ↔ keys.lookup key = some role := by
  rw [(loadApiKeys_eq_ok.1 h).2.2, lookup_pairs]
  rfl

/-! ### The text of a dict -/

theorem lookup_reverse {keys : List (String × Role)} (h : (keys.map Prod.fst).Nodup) (key : String) :
    keys.reverse.lookup key = keys.lookup key := by
  induction keys with
  | nil => rfl
  | cons kr keys ih =>
    obtain ⟨k, r⟩ := kr
    rw [List.map_cons, List.nodup_cons] at h
    rw [List.reverse_cons, List.lookup_append, ih h.2, List.lookup_cons, List.lookup_cons]
    by_cases hk : key = k
    · have hnone : keys.lookup key = none := by
        rw [List.lookup_eq_none_iff]
        intro x hx
        rw [bne_iff_ne]
        rintro rfl
        exact h.1 (List.mem_map.2 ⟨x, hx, hk⟩)
      rw [hnone, beq_iff_eq.2 hk]
      rfl
    · rw [beq_eq_false_iff_ne.2 hk]
      exact Option.or_none

/-- **The keys are read back** from the text that is written of them exactly where each of them is plain. -/
theorem load_written_iff {keys : List (String × Role)} (hne : keys ≠ []) (hnodup : (keys.map Prod.fst).Nodup) :
    (∃ loaded, loadApiKeys (written keys) = .ok loaded ∧ ∀ key, loaded.lookup key = keys.lookup key) ↔
      ∀ kr ∈ keys, Plain kr.1 := by
  constructor
  · rintro ⟨loaded, hload, hlookup⟩ ⟨key, role⟩ hkr
    have hsome : keys.lookup key ≠ none := by
      rw [Ne, List.lookup_eq_none_iff]
      exact fun h => by simpa using h _ hkr
    obtain ⟨role', hrole⟩ := Option.ne_none_iff_exists'.1 hsome
    rw [← hlookup, ← granted_iff hload] at hrole
    obtain ⟨before, piece, after, hpieces, hpair, -⟩ := hrole
    refine plain_of_readPair hpair (Joined.not_mem_of_mem_splitOn (t := (written keys).toList) ?_)
    rw [hpieces]
    simp
  · intro hplain
    have hcomma : ∀ t ∈ keys.map (fun k => k.1.toList ++ ':' :: k.2.value.toList), ',' ∉ t := by
      simp only [List.forall_mem_map]
      intro kr hkr
      have hvalue : ',' ∉ ':' :: kr.2.value.toList := by cases kr.2 <;> decide
      rw [List.mem_append, not_or]
      exact ⟨(hplain kr hkr).comma, hvalue⟩
    have hsplit : (written keys).toList.splitOn ',' = keys.map fun k => k.1.toList ++ ':' :: k.2.value.toList := by
      rw [written, String.toList_ofList, Joined.splitOn_intercalate _ (by simpa using hne), Joined.pieces_of_plain hcomma]
    have hread : ∀ kr ∈ keys, readPair (kr.1.toList ++ ':' :: kr.2.value.toList) = .pair kr.1.toList kr.2 :=
      fun kr hkr => readPair_written (hplain kr hkr) kr.2
    have hpairs : (keys.map fun k => k.1.toList ++ ':' :: k.2.value.toList).filterMap pairOf = keys := by
      rw [List.filterMap_map]
      conv_rhs => rw [← @List.filterMap_some _ keys]
      exact List.filterMap_congr fun kr hkr => pairOf_eq_some.2 (hread kr hkr)
    refine ⟨keys.reverse, loadApiKeys_eq_ok.2 ⟨?_, by simpa using hne, by rw [hsplit, hpairs]⟩, lookup_reverse hnodup⟩
    rw [hsplit, List.forall_mem_map]
    intro kr hkr key role
    rw [hread kr hkr]
    exact Pair.noConfusion

/-- A key with a colon in it is not read back. -/
theorem load_written_colon : ¬ ∃ loaded, loadApiKeys (written [("ops", .admin), ("audit:1", .auditor)]) = .ok loaded ∧
    ∀ key, loaded.lookup key = [("ops", Role.admin), ("audit:1", .auditor)].lookup key := by
  rw [load_written_iff (by simp) (by decide)]
  intro hplain
  exact (hplain ("audit:1", .auditor) (by simp)).colon (by decide)

/-! ### Runs -/

section

variable {keys : List (String × Role)} {signer : Signer} {s : Server} {r : HttpRequest}

/-- The server after the requests, one after the other. -/
def after (keys : List (String × Role)) (signer : Signer) (s : Server) (rs : List HttpRequest) : Server :=
  Lockstep.final (serve keys signer) s rs

theorem resolve_eq_some {apiKey : Option String} {ctx : AuthContext} (h : resolve keys apiKey = some ctx) :
    ∃ key ∈ apiKey, keys.lookup key = some ctx.role := by
  obtain ⟨key, hkey, h⟩ := Option.bind_eq_some_iff.1 h
  split_ifs at h
  obtain ⟨role, hrole, h⟩ := Option.bind_eq_some_iff.1 h
  obtain rfl := Option.some.inj h
  exact ⟨key, hkey, hrole⟩

/-- **One request**: it is that of the role of its key, or it leaves the server as it is. -/
theorem serve_cases (keys : List (String × Role)) (signer : Signer) (s : Server) (r : HttpRequest) :
    (passes keys r = true ∧ ∃ role, (∃ key ∈ r.apiKey, keys.lookup key = some role) ∧ role ∈ r.endpoint.allowed ∧
        serve keys signer s r = s.step signer (r.withRole role)) ∨
      passes keys r = false ∧ (serve keys signer s r).2 = s := by
  rw [serve, passes, requireRole]
  cases hctx : resolve keys r.apiKey with
  | none => exact .inr ⟨rfl, rfl⟩
  | some ctx =>
    by_cases hrole : ctx.role ∈ r.endpoint.allowed
    · refine .inl ?_
      simp only [if_pos hrole]
      exact ⟨rfl, ctx.role, resolve_eq_some hctx, hrole, (if_pos hrole).symm⟩
    · refine .inr ?_
      simp only [if_neg hrole]
      exact ⟨rfl, trivial⟩

theorem serve_sound (h : s.Sound signer) (r : HttpRequest) : (serve keys signer s r).2.Sound signer := by
  rcases serve_cases keys signer s r with ⟨-, role, -, -, heq⟩ | ⟨-, heq⟩
  · rw [heq]
    exact (Server.step_leaves h _).sound
  · rwa [heq]

/-- Without an admin key, no approval is changed. -/
theorem serve_approvalTables (h : s.Sound signer) (hadmin : ∀ key ∈ r.apiKey, keys.lookup key ≠ some .admin) :
    (serve keys signer s r).2.engine.db.approvalTables = s.engine.db.approvalTables := by
  rcases serve_cases keys signer s r with ⟨-, role, ⟨key, hkey, hlookup⟩, hallowed, heq⟩ | ⟨-, heq⟩
  · have hrole : role ≠ .admin := fun h => hadmin key hkey (h ▸ hlookup)
    rw [heq]
    by_cases hsetup : ∀ what, r.endpoint ≠ .setup what
    · exact Server.step_approvalTables h hsetup
    · obtain ⟨what, hwhat⟩ := not_forall_not.1 hsetup
      rw [hwhat] at hallowed
      cases what with
      | createInstance i hash =>
        have hstep : (s.step signer (r.withRole role)).2.engine =
            ((Setup.createInstance i hash).run signer r.env.now.text r.traceId s.engine).2 := by
          rw [Server.step, if_pos (by rw [HttpRequest.withRole, hwhat]; exact hallowed), Server.handle,
            HttpRequest.withRole, hwhat]
        rw [hstep, Setup.run]
        split
        · rfl
        · rename_i t ht
          rw [← activate_db ht]
          exact (createInstance_tables t i).2
      | _ => exact absurd (List.mem_singleton.1 hallowed) hrole
  · rw [heq]

/-- Without an admin or system key, no row is recorded. -/
theorem serve_ledger (h : s.Sound signer)
    (hkeys : ∀ key ∈ r.apiKey, keys.lookup key ≠ some .admin ∧ keys.lookup key ≠ some .system) :
    (serve keys signer s r).2.engine.db.ledger = s.engine.db.ledger := by
  rcases serve_cases keys signer s r with ⟨-, role, ⟨key, hkey, hlookup⟩, hallowed, heq⟩ | ⟨-, heq⟩
  · have hadded : s.added signer (r.withRole role) = none := by
      cases hp : s.added signer (r.withRole role) with
      | none => rfl
      | some p =>
        obtain ⟨body, hbody, hmem, -⟩ := Server.added_eq_some hp
        rw [hbody] at hmem
        rcases List.mem_pair.1 hmem with hrole | hrole
        · exact absurd (hrole ▸ hlookup) (hkeys key hkey).1
        · exact absurd (hrole ▸ hlookup) (hkeys key hkey).2
    rw [heq, (Server.step_leaves h _).ledger, hadded]
    exact List.append_nil _
  · rw [heq]

/-- A refused request leaves no trace in the other answers. -/
theorem answers_of_passing (s : Server) (rs : List HttpRequest) :
    Lockstep.outputs (serve keys signer) (passes keys) s rs =
        Lockstep.outputs (serve keys signer) (fun _ => true) s (rs.filter (passes keys)) ∧
      after keys signer s rs = after keys signer s (rs.filter (passes keys)) := by
  induction rs generalizing s with
  | nil => exact ⟨rfl, rfl⟩
  | cons r rs ih =>
    cases hr : passes keys r with
    | true =>
      obtain ⟨hout, hend⟩ := ih (serve keys signer s r).2
      rw [List.filter_cons_of_pos hr, Lockstep.outputs, Lockstep.outputs, if_pos hr, if_pos rfl, hout]
      exact ⟨rfl, hend⟩
    | false =>
      have hkeep : (serve keys signer s r).2 = s := by
        rcases serve_cases keys signer s r with ⟨hpass, -⟩ | ⟨-, heq⟩
        · rw [hr] at hpass
          cases hpass
        · exact heq
      obtain ⟨hout, hend⟩ := ih s
      rw [List.filter_cons_of_neg (by simp [hr]), Lockstep.outputs, if_neg (by simp [hr]), hkeep]
      refine ⟨hout, ?_⟩
      rw [← hend, after, Lockstep.final, List.foldl_cons, hkeep]
      rfl

end

/-- An auditor asks for a decision on the loan, then for the chain. -/
def auditRequests : List HttpRequest :=
  [⟨some "audit", "tenant-1", "trace-1", loanEnv, .decision Server.loanBody⟩,
    ⟨some "audit", "tenant-1", "trace-2", loanEnv, .chain "loan_1" false⟩]

end Auth
end ProvableAi
