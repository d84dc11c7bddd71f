/-
# The legacy package verifier

`tools/verify_core.py`: a package signed as a whole, with the protocol, the
instance and a ledger whose entries are signed one by one.  The verifier replays
the ledger: it keeps the state the protocol is in, asks for a transition from
there to the entry's `to_state`, and goes on from `to_state`.

What an entry says of itself besides, its `from_state`, `instance_id` and
`protocol_hash`, is hashed and signed and compared with nothing.  So the replay
follows a path of the protocol (`Followed`), and the entries are that path exactly
if each carries the state the replay has reached and the identity of the embedded
instance (`path_iff`).

Values are compared as Python's `==` compares them, which takes `True` for `1` and
`1.0`.  The texts of the interpreter's own exceptions are left out.
-/

import ProvableAi.Audit.KeyRegistry
import ProvableAi.Engine.Facade
import ProvableAi.Lib.Merkle
import ProvableAi.Storage.Atomic
import Mathlib.Data.List.Chain

namespace ProvableAi

/-! ### `==` -/

/-- What `==` looks at: a number by its value, a `dict` without the order of its
keys. -/
inductive PyValue where
  | none
  | number (r : ℚ)
  | infinity (negative : Bool)
  | text (s : String)
  | list (xs : List PyValue)
  | dict (kvs : List (String × PyValue))

namespace PyValue

mutual
/-- Structural equality. -/
def beq : PyValue → PyValue → Bool
  | .none, .none => true
  | .number r, .number q => decide (r = q)
  | .infinity a, .infinity b => a == b
  | .text s, .text t => decide (s = t)
  | .list xs, .list ys => beqItems xs ys
  | .dict kvs, .dict lvs => beqMembers kvs lvs
  | _, _ => false

/-- `beq` of the items of two lists. -/
def beqItems : List PyValue → List PyValue → Bool
  | [], [] => true
  | x :: xs, y :: ys => beq x y && beqItems xs ys
  | _, _ => false

/-- `beq` of the members of two dicts. -/
def beqMembers : List (String × PyValue) → List (String × PyValue) → Bool
  | [], [] => true
  | (k, x) :: kvs, (l, y) :: lvs => decide (k = l) && beq x y && beqMembers kvs lvs
  | _, _ => false
end

mutual
theorem beq_iff : ∀ a b : PyValue, beq a b = true ↔ a = b
  | .none, b => by cases b <;> simp [beq]
  | .number r, b => by cases b <;> simp [beq]
  | .infinity n, b => by cases b <;> simp [beq]
  | .text s, b => by cases b <;> simp [beq]
  | .list xs, b => by cases b <;> simp [beq, beqItems_iff xs]
  | .dict kvs, b => by cases b <;> simp [beq, beqMembers_iff kvs]

theorem beqItems_iff : ∀ xs ys : List PyValue, beqItems xs ys = true ↔ xs = ys
  | [], ys => by cases ys <;> simp [beqItems]
  | x :: xs, ys => by cases ys <;> simp [beqItems, beq_iff x, beqItems_iff xs]

theorem beqMembers_iff : ∀ kvs lvs : List (String × PyValue), beqMembers kvs lvs = true ↔ kvs = lvs
  | [], lvs => by cases lvs <;> simp [beqMembers]
  | (k, x) :: kvs, lvs => by
    cases lvs with
    | nil => simp [beqMembers]
    | cons m lvs => simp [beqMembers, beq_iff x, beqMembers_iff kvs, Prod.ext_iff]
end

instance : DecidableEq PyValue := fun a b => decidable_of_iff _ (beq_iff a b)

end PyValue

namespace Json

mutual
/-- The value as `==` sees it. -/
def pyValue : Json → PyValue
  | .null => .none
  | .bool b => .number (if b then 1 else 0)
  | .int n => .number n
  | .float x =>
    match Atomic.floatValue x with
    | some r => .number r
    | none => .infinity (decide (x.text.head? = some '-'))
  | .str s => .text s
  | .arr xs => .list (pyItems xs)
  | .obj kvs => .dict (sortKeys (pyMembers kvs))

/-- `pyValue` of every item. -/
def pyItems : List Json → List PyValue
  | [] => []
  | x :: xs => x.pyValue :: pyItems xs

/-- The keys and `pyValue` of every value. -/
def pyMembers : List (String × Json) → List (String × PyValue)
  | [] => []
  | (k, x) :: kvs => (k, x.pyValue) :: pyMembers kvs
end

/-- `a == b`. -/
def Same (a b : Json) : Prop := a.pyValue = b.pyValue

instance (a b : Json) : Decidable (Same a b) := decEq a.pyValue b.pyValue

theorem Same.rfl {a : Json} : Same a a := Eq.refl a.pyValue

theorem Same.symm {a b : Json} (h : Same a b) : Same b a := Eq.symm h

theorem Same.trans {a b c : Json} (h : Same a b) (h' : Same b c) : Same a c := Eq.trans h h'

/-- `True == 1`, and the order of keys does not count. -/
example : Same (.bool true) (.int 1) ∧ Same (.obj [("a", .null), ("b", .null)]) (.obj [("b", .null), ("a", .null)]) ∧
    ¬ Same (.str "1") (.int 1) := by decide

end Json

namespace VerifyCore

open Json (Same)

/-! ### Helpers -/

/-- `VerificationResult`. -/
structure VerificationResult where
  valid : Bool
  reason : String
  finalState : Json
  instanceId : Json

/-- `VerificationResult(False, reason)`. -/
def refused (reason : String) : VerificationResult := ⟨false, reason, .null, .null⟩

/-- `SCHEMA_VERSION`. -/
def schemaVersion : String := "1.0"

/-- `_canonical`. -/
def canonical (v : Json) : Bytes := utf8 (KeyRegistry.dumpsAscii v)

/-- `_sha256_bytes(_canonical(v))`. -/
def canonicalHash (v : Json) : String := toHex (sha256 (canonical v))

/-- `_merkle_root`. -/
def merkleRoot (hashes : List String) : Option String :=
  (Merkle.climb (fun left right => sha256Hex (left ++ right)) hashes.length hashes).head?

/-- The bytes of pairs of hexadecimal digits. -/
def unhexPairs : List Char → Option Bytes
  | [] => some []
  | [_] => none
  | a :: b :: r => do
    let x ← hexVal a
    let y ← hexVal b
    let bs ← unhexPairs r
    pure (UInt8.ofNat (16 * x + y) :: bs)

/-- `VerifyKey(v, encoder=HexEncoder)`; `none` where it raises. -/
def verifyKey : Json → Option Bytes
  | .str s => (unhexPairs s.toList).filter fun bs => bs.length = 32
  | _ => none

/-- `verify_key.verify(message, bytes.fromhex(v))` does not raise. -/
def verifies (ed : Ed25519) (key message : Bytes) : Json → Bool
  | .str s =>
    match fromHex s with
    | some signature => ed key message signature
    | none => false
  | _ => false

/-- The keys that `_build_entry_payload` takes over before the schema version. -/
def payloadKeys : List String :=
  ["protocol_hash", "instance_id", "from_state", "to_state", "actor", "input_hash", "output_hash", "model_version",
    "agent_version", "policy_version", "metadata_json"]

/-- `_build_entry_payload`. -/
def buildEntryPayload (entry previousHash : Json) : Except PyErr Json := do
  let fields ← payloadKeys.mapM fun k => do
    let v ← entry.index k
    pure (k, v)
  let schema ← entry.getD "schema_version" (.str schemaVersion)
  let version ← entry.index "version"
  let timestamp ← entry.index "timestamp"
  pure (.obj ([("previous_hash", previousHash)] ++ fields ++
    [("schema_version", schema), ("version", version), ("timestamp", timestamp)]))

/-! ### The replay -/

/-- `any(t["from_state"] == state and t["to_state"] == to_state for t in transitions)`. -/
def validTransition (state toState : Json) : List Json → Except PyErr Bool
  | [] => pure false
  | t :: ts => do
    let source ← t.index "from_state"
    if Same source state then
      let target ← t.index "to_state"
      if Same target toState then pure true else validTransition state toState ts
    else validTransition state toState ts

/-- The loop of step 4, before the entry `i`: a reason to refuse the package, or the
state after the last entry and the hashes. -/
def replay (ed : Ed25519) (key : Bytes) (protocol : Json) :
    ℕ → Json → Json → List Json → Except PyErr (Except String (Json × List String))
  | _, state, _, [] => pure (.ok (state, []))
  | i, state, previousHash, entry :: rest => do
    let no := "Entry " ++ toString (i + 1)
    let schema ← entry.getD "schema_version" .null
    if schema ≠ .str schemaVersion then
      pure (.error (no ++ ": schema version mismatch (expected " ++ schemaVersion ++ ", got " ++ schema.pyStr ++ ")"))
    else do
      let version ← entry.getD "version" .null
      if ¬ Same version (.int (i + 1)) then
        pure (.error (no ++ ": version sequence broken (expected " ++ toString (i + 1) ++ ", got " ++ version.pyStr ++ ")"))
      else do
        let payload ← buildEntryPayload entry previousHash
        let currentHash ← entry.getD "current_hash" .null
        if currentHash ≠ .str (canonicalHash payload) then
          pure (.error (no ++ ": hash mismatch — record may have been altered"))
        else if !verifies ed key (canonical payload) ((entry.get? "signature").getD .null) then
          pure (.error (no ++ ": ledger entry signature invalid"))
        else do
          let toState ← entry.index "to_state"
          let transitions ← protocol.getD "transitions" (.arr [])
          let transitions ← transitions.iter
          let valid ← validTransition state toState transitions
          if !valid then
            pure (.error (no ++ ": invalid transition " ++ state.repr ++ " -> " ++ toState.repr ++ " not in protocol"))
          else do
            let outcome ← replay ed key protocol (i + 1) toState currentHash rest
            pure (outcome.map fun r => (r.1, canonicalHash payload :: r.2))

/-- The body of the `try` of `verify_package`. -/
def checkPackage (ed : Ed25519) (package : Json) : Except PyErr VerificationResult := do
  let type ← package.getD "type" .null
  if type ≠ .str packageType then pure (refused "Invalid proof type")
  else do
    let publicKeyHex ← package.getD "public_key" .null
    let proof ← package.getD "proof" .null
    let signatureHex ← package.getD "signature" .null
    if !publicKeyHex.truthy || !proof.truthy || !signatureHex.truthy then
      pure (refused "Proof package missing required fields")
    else
      match verifyKey publicKeyHex with
      | none => pure (refused "Outer package signature invalid")
      | some key =>
        if !verifies ed key (canonical proof) signatureHex then pure (refused "Outer package signature invalid")
        else do
          let protocol ← proof.getD "protocol" .null
          let inst ← proof.getD "instance" .null
          let ledger ← proof.getD "ledger" (.arr [])
          let instanceRoot ← proof.getD "instance_root" .null
          if !protocol.truthy || !inst.truthy then pure (refused "Proof missing protocol or instance")
          else do
            let protocolHash ← inst.getD "protocol_hash" .null
            if protocolHash ≠ .str (canonicalHash protocol) then
              pure (refused "Protocol hash mismatch — spec may have been swapped")
            else do
              let initial ← protocol.index "initial_state"
              let entries ← ledger.iter
              let outcome ← replay ed key protocol 0 initial .null entries
              match outcome with
              | .error reason => pure (refused reason)
              | .ok (state, hashes) =>
                let root := Json.ofOptStr (merkleRoot (hashes.insertionSort fun a b => a ≤ b))
                if root ≠ instanceRoot then
                  pure (refused "Instance Merkle root mismatch — ledger may be incomplete or reordered")
                else do
                  let instanceId ← inst.getD "instance_id" .null
                  pure ⟨true, "Proof verified successfully", state, instanceId⟩

/-- `verify_package`. -/
def verifyPackage (ed : Ed25519) (package : Json) : VerificationResult :=
  match checkPackage ed package with
  | .ok r => r
  | .error (.keyError k) => refused ("Proof package missing field: " ++ PyErr.reprStr k)
  | .error _ => refused "Verification error: "

/-! ### The property -/

/-- `v.get(k)`. -/
def field (v : Json) (k : String) : Json := (v.get? k).getD .null

/-- The items of a list. -/
def items : Json → List Json
  | .arr xs => xs
  | _ => []

section

variable (package : Json)

/-- The embedded protocol. -/
def protocolOf : Json := field (field package "proof") "protocol"

/-- The embedded instance. -/
def instanceOf : Json := field (field package "proof") "instance"

/-- The entries of the ledger. -/
def ledgerOf : List Json := items (field (field package "proof") "ledger")

end

/-- **The entries are a path of the protocol.** -/
structure IsPath (protocol inst finalState : Json) (es : List Json) : Prop where
  /-- The first entry starts in the initial state. -/
  first : ∀ e ∈ es.head?, Same (field e "from_state") (field protocol "initial_state")
  /-- Every later entry starts where the one before it ends. -/
  later : es.IsChain fun d e => Same (field e "from_state") (field d "to_state")
  /-- Every entry is along a transition. -/
  transitions : ∀ e ∈ es, ∃ t ∈ items (field protocol "transitions"),
    Same (field t "from_state") (field e "from_state") ∧ Same (field t "to_state") (field e "to_state")
  /-- Every entry is of the embedded instance. -/
  identity : ∀ e ∈ es, Same (field e "instance_id") (field inst "instance_id") ∧
    Same (field e "protocol_hash") (field inst "protocol_hash")
  /-- The final state is where the last entry ends. -/
  final : ∀ e ∈ es.getLast?, finalState = field e "to_state"

/-- Every entry carries the state that the replay has reached before it, and the
identity of the instance. -/
def Carries (inst : Json) : Json → List Json → Prop
  | _, [] => True
  | state, e :: es =>
    Same (field e "from_state") state ∧ Same (field e "instance_id") (field inst "instance_id") ∧
      Same (field e "protocol_hash") (field inst "protocol_hash") ∧ Carries inst (field e "to_state") es

/-- What the replay has checked: from the state it has reached, each entry's `to_state`
is one transition away. -/
def Followed (protocol : Json) : Json → List Json → Prop
  | _, [] => True
  | state, e :: es =>
    (∃ t ∈ items (field protocol "transitions"), Same (field t "from_state") state ∧
      Same (field t "to_state") (field e "to_state")) ∧ Followed protocol (field e "to_state") es

/-- The state after the entries. -/
def lastState (state : Json) (es : List Json) : Json := es.foldl (fun _ e => field e "to_state") state

/-! ### What the replay checks -/

theorem index_eq_ok {v w : Json} {k : String} : v.index k = .ok w ↔ v.get? k = some w := by
  cases v with
  | obj kvs =>
    rw [Json.index, Json.get?]
    cases kvs.lookup k <;> simp
  | _ => simp [Json.index, Json.get?]

theorem field_of_index {v w : Json} {k : String} (h : v.index k = .ok w) : field v k = w := by
  rw [field, index_eq_ok.1 h]
  rfl

theorem field_of_getD {v w : Json} {k : String} (h : v.getD k .null = .ok w) : field v k = w := (Json.getD_eq_ok.1 h).2

theorem validTransition_true {state toState : Json} {ts : List Json} (h : validTransition state toState ts = .ok true) :
    ∃ t ∈ ts, t.isObj = true ∧ Same (field t "from_state") state ∧ Same (field t "to_state") toState := by
  induction ts with
  | nil => cases h
  | cons t ts ih =>
    obtain ⟨source, hs, h⟩ := bind_eq_ok_iff.1 h
    have hobj : t.isObj = true := Json.isObj_of_get? (index_eq_ok.1 hs)
    have hlater : validTransition state toState ts = .ok true → ∃ t' ∈ t :: ts, t'.isObj = true ∧
        Same (field t' "from_state") state ∧ Same (field t' "to_state") toState := by
      intro h
      obtain ⟨t', ht', h⟩ := ih h
      exact ⟨t', List.mem_cons_of_mem _ ht', h⟩
    split_ifs at h with hsame
    · obtain ⟨target, ht, h⟩ := bind_eq_ok_iff.1 h
      split_ifs at h with hsame'
      · refine ⟨t, List.mem_cons_self, hobj, ?_, ?_⟩
        · rwa [field_of_index hs]
        · rwa [field_of_index ht]
      · exact hlater h
    · exact hlater h

/-- What is iterated and holds a `dict` is a list. -/
theorem items_of_iter {v : Json} {xs : List Json} (h : v.iter = .ok xs) (hobj : ∃ x ∈ xs, x.isObj = true) :
    items v = xs := by
  obtain ⟨x, hx, hobj⟩ := hobj
  cases v with
  | arr ys => exact Except.ok.inj h
  | obj kvs =>
    obtain rfl := Except.ok.inj h
    obtain ⟨kv, -, rfl⟩ := List.mem_map.1 hx
    cases hobj
  | str s =>
    obtain rfl := Except.ok.inj h
    obtain ⟨c, -, rfl⟩ := List.mem_map.1 hx
    cases hobj
  | _ => cases h

/-- What is iterated and holds nothing but `dict`s is a list, or is empty. -/
theorem items_of_iter_all {v : Json} {xs : List Json} (h : v.iter = .ok xs) (hobj : ∀ x ∈ xs, x.isObj = true) :
    items v = xs := by
  cases xs with
  | nil =>
    cases v with
    | arr ys => exact Except.ok.inj h
    | _ => rfl
  | cons x xs => exact items_of_iter h ⟨x, List.mem_cons_self, hobj x List.mem_cons_self⟩

/-- The default of `get` does not matter for the items. -/
theorem items_of_getD {v w : Json} {k : String} (h : v.getD k (.arr []) = .ok w) : items (field v k) = items w := by
  obtain ⟨-, hd⟩ := Json.getD_eq_ok.1 h
  rw [field]
  cases hg : v.get? k with
  | none =>
    rw [hg] at hd
    obtain rfl : Json.arr [] = w := hd
    rfl
  | some x =>
    rw [hg] at hd
    exact congrArg items hd

variable {ed : Ed25519}

/-- **The replay follows the protocol**, whatever the entries carry. -/
theorem replay_followed {key : Bytes} {protocol : Json} {es : List Json} :
    ∀ {i : ℕ} {state previousHash finalState : Json} {hashes : List String},
      replay ed key protocol i state previousHash es = .ok (.ok (finalState, hashes)) →
        Followed protocol state es ∧ finalState = lastState state es ∧ ∀ e ∈ es, e.isObj = true := by
  induction es with
  | nil =>
    intro i state previousHash finalState hashes h
    obtain ⟨rfl, -⟩ := Prod.mk.inj (Except.ok.inj (Except.ok.inj h))
    exact ⟨trivial, rfl, by simp⟩
  | cons e es ih =>
    intro i state previousHash finalState hashes h
    rw [replay] at h
    obtain ⟨schema, hschema, h⟩ := bind_eq_ok_iff.1 h
    split_ifs at h with h1
    · cases h
    obtain ⟨version, -, h⟩ := bind_eq_ok_iff.1 h
    split_ifs at h with h2
    · obtain ⟨payload, -, h⟩ := bind_eq_ok_iff.1 h
      obtain ⟨currentHash, -, h⟩ := bind_eq_ok_iff.1 h
      split_ifs at h with h3 h4
      · cases h
      · cases h
      obtain ⟨toState, hto, h⟩ := bind_eq_ok_iff.1 h
      obtain ⟨transitions, htrans, h⟩ := bind_eq_ok_iff.1 h
      obtain ⟨ts, hts, h⟩ := bind_eq_ok_iff.1 h
      obtain ⟨valid, hvalid, h⟩ := bind_eq_ok_iff.1 h
      split_ifs at h with h5
      · cases h
      have h5 : valid = true := by simpa using h5
      rw [h5] at hvalid
      obtain ⟨outcome, hrest, h⟩ := bind_eq_ok_iff.1 h
      obtain ⟨t, ht, hobj, hsource, htarget⟩ := validTransition_true hvalid
      have hitems : items (field protocol "transitions") = ts :=
        (items_of_getD htrans).trans (items_of_iter hts ⟨t, ht, hobj⟩)
      cases outcome with
      | error reason => cases h
      | ok r =>
        obtain ⟨rfl, -⟩ := Prod.mk.inj (Except.ok.inj (Except.ok.inj h))
        obtain ⟨hfollowed, hlast, hobjs⟩ := ih hrest
        have hto := field_of_index hto
        refine ⟨⟨⟨t, hitems ▸ ht, hsource, by rwa [hto]⟩, by rwa [hto]⟩, ?_, ?_⟩
        · rw [hlast, ← hto]
          rfl
        · exact List.forall_mem_cons.2 ⟨(Json.getD_eq_ok.1 hschema).1, hobjs⟩
    · cases h

/-- What an accepted package's replay has done. -/
theorem accepted_followed {package : Json} (h : (verifyPackage ed package).valid = true) :
    Followed (protocolOf package) (field (protocolOf package) "initial_state") (ledgerOf package) ∧
      (verifyPackage ed package).finalState =
        lastState (field (protocolOf package) "initial_state") (ledgerOf package) := by
  rw [verifyPackage] at h ⊢
  cases hcheck : checkPackage ed package with
  | error e =>
    rw [hcheck] at h
    cases e <;> cases h
  | ok r =>
    rw [hcheck] at h
    dsimp only at h ⊢
    rw [checkPackage] at hcheck
    obtain ⟨type, -, hcheck⟩ := bind_eq_ok_iff.1 hcheck
    split_ifs at hcheck with h1
    · obtain rfl := Except.ok.inj hcheck
      cases h
    obtain ⟨publicKeyHex, -, hcheck⟩ := bind_eq_ok_iff.1 hcheck
    obtain ⟨proof, hproof, hcheck⟩ := bind_eq_ok_iff.1 hcheck
    obtain ⟨signatureHex, -, hcheck⟩ := bind_eq_ok_iff.1 hcheck
    split_ifs at hcheck with h2
    · obtain rfl := Except.ok.inj hcheck
      cases h
    cases hkey : verifyKey publicKeyHex with
    | none =>
      rw [hkey] at hcheck
      obtain rfl := Except.ok.inj hcheck
      cases h
    | some key =>
      rw [hkey] at hcheck
      dsimp only at hcheck
      split_ifs at hcheck with h3
      · obtain rfl := Except.ok.inj hcheck
        cases h
      obtain ⟨protocol, hprotocol, hcheck⟩ := bind_eq_ok_iff.1 hcheck
      obtain ⟨inst, -, hcheck⟩ := bind_eq_ok_iff.1 hcheck
      obtain ⟨ledger, hledger, hcheck⟩ := bind_eq_ok_iff.1 hcheck
      obtain ⟨instanceRoot, -, hcheck⟩ := bind_eq_ok_iff.1 hcheck
      split_ifs at hcheck with h4
      · obtain rfl := Except.ok.inj hcheck
        cases h
      obtain ⟨protocolHash, -, hcheck⟩ := bind_eq_ok_iff.1 hcheck
      split_ifs at hcheck with h5
      · obtain rfl := Except.ok.inj hcheck
        cases h
      obtain ⟨initial, hinitial, hcheck⟩ := bind_eq_ok_iff.1 hcheck
      obtain ⟨entries, hentries, hcheck⟩ := bind_eq_ok_iff.1 hcheck
      obtain ⟨outcome, hreplay, hcheck⟩ := bind_eq_ok_iff.1 hcheck
      cases outcome with
      | error reason =>
        obtain rfl := Except.ok.inj hcheck
        cases h
      | ok out =>
        obtain ⟨state, hashes⟩ := out
        dsimp only at hcheck
        split_ifs at hcheck with h6
        · obtain rfl := Except.ok.inj hcheck
          cases h
        obtain ⟨instanceId, -, hcheck⟩ := bind_eq_ok_iff.1 hcheck
        obtain rfl := Except.ok.inj hcheck
        obtain ⟨hfollowed, hlast, hobjs⟩ := replay_followed hreplay
        have hprotocol : protocolOf package = protocol := by
          rw [protocolOf, field_of_getD hproof, field_of_getD hprotocol]
        have hentries : ledgerOf package = entries := by
          rw [ledgerOf, field_of_getD hproof, items_of_getD hledger]
          exact items_of_iter_all hentries hobjs
        rw [hprotocol, hentries, field_of_index hinitial]
        exact ⟨hfollowed, hlast⟩

/-! ### When the entries are the path -/

theorem carries_iff {inst : Json} {es : List Json} : ∀ {state : Json}, Carries inst state es ↔
    (∀ e ∈ es.head?, Same (field e "from_state") state) ∧
      (es.IsChain fun d e => Same (field e "from_state") (field d "to_state")) ∧
      ∀ e ∈ es, Same (field e "instance_id") (field inst "instance_id") ∧
        Same (field e "protocol_hash") (field inst "protocol_hash") := by
  induction es with
  | nil => exact fun {state} => ⟨fun _ => ⟨by simp, .nil, by simp⟩, fun _ => trivial⟩
  | cons e es ih =>
    intro state
    rw [Carries, ih, List.isChain_cons, List.forall_mem_cons]
    constructor
    · rintro ⟨hfrom, hid, hhash, hhead, hchain, hall⟩
      refine ⟨fun d hd => ?_, ⟨hhead, hchain⟩, ⟨hid, hhash⟩, hall⟩
      obtain rfl := Option.some.inj hd
      exact hfrom
    · rintro ⟨hfrom, ⟨hhead, hchain⟩, ⟨hid, hhash⟩, hall⟩
      exact ⟨hfrom e rfl, hid, hhash, hhead, hchain, hall⟩

/-- Entries that carry the states of the replay are along its transitions. -/
theorem Followed.transitions {protocol inst : Json} {es : List Json} : ∀ {state : Json}, Followed protocol state es →
    Carries inst state es → ∀ e ∈ es, ∃ t ∈ items (field protocol "transitions"),
      Same (field t "from_state") (field e "from_state") ∧ Same (field t "to_state") (field e "to_state") := by
  induction es with
  | nil => simp
  | cons e es ih =>
    rintro state ⟨⟨t, ht, hsource, htarget⟩, hrest⟩ ⟨hfrom, -, -, hcarries⟩
    exact List.forall_mem_cons.2 ⟨⟨t, ht, hsource.trans hfrom.symm, htarget⟩, ih hrest hcarries⟩

theorem lastState_getLast {state : Json} {es : List Json} : ∀ e ∈ es.getLast?, lastState state es = field e "to_state" := by
  intro e he
  obtain ⟨rest, rfl⟩ := List.getLast?_eq_some_iff.1 he
  rw [lastState, List.foldl_append]
  rfl

/-- **An accepted package's entries are a path of its protocol** exactly if every
entry carries the state that the replay has reached, and the id and the protocol
hash of the instance. -/
theorem path_iff {package : Json} (h : (verifyPackage ed package).valid = true) :
    IsPath (protocolOf package) (instanceOf package) (verifyPackage ed package).finalState (ledgerOf package) ↔
      Carries (instanceOf package) (field (protocolOf package) "initial_state") (ledgerOf package) := by
  obtain ⟨hfollowed, hlast⟩ := accepted_followed h
  constructor
  · intro hp
    exact carries_iff.2 ⟨hp.first, hp.later, hp.identity⟩
  · intro hc
    obtain ⟨hfirst, hlater, hidentity⟩ := carries_iff.1 hc
    refine ⟨hfirst, hlater, hfollowed.transitions hc, hidentity, fun e he => ?_⟩
    rw [hlast]
    exact lastState_getLast e he

/-! ### Passing the checks -/

section

variable {key : Bytes}

/-- An entry that passes every check is replayed. -/
theorem replay_step {protocol state previousHash entry version payload toState transitions : Json} {rest ts : List Json}
    {i : ℕ} (hschema : entry.getD "schema_version" .null = .ok (.str schemaVersion))
    (hversion : entry.getD "version" .null = .ok version) (hsame : Same version (.int (i + 1)))
    (hpayload : buildEntryPayload entry previousHash = .ok payload)
    (hhash : entry.getD "current_hash" .null = .ok (.str (canonicalHash payload)))
    (hsigned : verifies ed key (canonical payload) ((entry.get? "signature").getD .null) = true)
    (hto : entry.index "to_state" = .ok toState) (htrans : protocol.getD "transitions" (.arr []) = .ok transitions)
    (hts : transitions.iter = .ok ts) (hvalid : validTransition state toState ts = .ok true) :
    replay ed key protocol i state previousHash (entry :: rest) = (do
      let outcome ← replay ed key protocol (i + 1) toState (.str (canonicalHash payload)) rest
      pure (outcome.map fun r => (r.1, canonicalHash payload :: r.2))) := by
  rw [replay]
  simp only [hschema, hversion, hsame, hpayload, hhash, hsigned, hto, htrans, hts, hvalid, ok_bind, ne_eq,
    not_true_eq_false, if_false, Bool.not_true, Bool.false_eq_true]

/-- A package that passes every check is accepted. -/
theorem verifyPackage_valid {package publicKeyHex signatureHex proof protocol inst ledger initial state instanceId : Json}
    {entries : List Json} {hashes : List String}
    (htype : package.getD "type" .null = .ok (.str packageType))
    (hpk : package.getD "public_key" .null = .ok publicKeyHex) (hproof : package.getD "proof" .null = .ok proof)
    (hsig : package.getD "signature" .null = .ok signatureHex)
    (hthere : publicKeyHex.truthy = true ∧ proof.truthy = true ∧ signatureHex.truthy = true)
    (hkey : verifyKey publicKeyHex = some key) (hsigned : verifies ed key (canonical proof) signatureHex = true)
    (hprotocol : proof.getD "protocol" .null = .ok protocol) (hinst : proof.getD "instance" .null = .ok inst)
    (hledger : proof.getD "ledger" (.arr []) = .ok ledger)
    (hroot : proof.getD "instance_root" .null =
      .ok (Json.ofOptStr (merkleRoot (hashes.insertionSort fun a b => a ≤ b))))
    (hparts : protocol.truthy = true ∧ inst.truthy = true)
    (hhash : inst.getD "protocol_hash" .null = .ok (.str (canonicalHash protocol)))
    (hinitial : protocol.index "initial_state" = .ok initial) (hentries : ledger.iter = .ok entries)
    (hreplay : replay ed key protocol 0 initial .null entries = .ok (.ok (state, hashes)))
    (hid : inst.getD "instance_id" .null = .ok instanceId) : (verifyPackage ed package).valid = true := by
  have hcheck : checkPackage ed package = .ok ⟨true, "Proof verified successfully", state, instanceId⟩ := by
    rw [checkPackage]
    simp only [htype, hpk, hproof, hsig, hthere, hkey, hsigned, hprotocol, hinst, hledger, hroot, hparts, hhash,
      hinitial, hentries, hreplay, hid, ok_bind, ne_eq, not_true_eq_false, if_false, Bool.not_true, Bool.or_self,
      Bool.false_eq_true]
    rfl
  rw [verifyPackage, hcheck]

end

/-! A package whose one entry is of another instance and starts elsewhere, properly
signed. -/

/-- A protocol with one transition. -/
def loanProtocol : Json :=
  .obj [("initial_state", .str "pending"),
    ("transitions", .arr [.obj [("from_state", .str "pending"), ("to_state", .str "approved")]])]

/-- What the entry says, without its links. -/
def strayFields : List (String × Json) :=
  [("protocol_hash", .str "none"), ("instance_id", .str "loan_2"), ("from_state", .str "rejected"),
    ("to_state", .str "approved"), ("actor", .str "a"), ("input_hash", .str ""), ("output_hash", .str ""),
    ("model_version", .str "m"), ("agent_version", .str "g"), ("policy_version", .str "p"),
    ("metadata_json", .str "\x7b\x7d"), ("schema_version", .str "1.0"), ("version", .int 1),
    ("timestamp", .str "2026-01-01T00:00:00Z")]

/-- What is hashed and signed of it. -/
def strayPayload : Json := .obj (("previous_hash", .null) :: strayFields)

/-- The signature over the entry. -/
def strayEntrySignature : Bytes :=
  [0x76, 0xaa, 0x4e, 0x63, 0x98, 0xd2, 0x06, 0xce, 0xa8, 0xdd, 0xc7, 0x4f, 0x0b, 0x0d, 0x00, 0xfe,
   0x96, 0x90, 0xd1, 0x96, 0x8a, 0x1a, 0x55, 0xa0, 0x44, 0xf5, 0x05, 0x6d, 0x5d, 0x46, 0xef, 0x79,
   0x48, 0x3a, 0x84, 0x2f, 0x35, 0x78, 0x30, 0x7b, 0x5c, 0xe1, 0x30, 0x8b, 0x1a, 0x66, 0xa4, 0x5a,
   0xe7, 0x29, 0x50, 0x6d, 0x33, 0xf0, 0x3e, 0x5e, 0x2e, 0x92, 0x3d, 0x2c, 0x1a, 0x4c, 0xe4, 0x04]

/-- The signature over the proof. -/
def strayProofSignature : Bytes :=
  [0x1f, 0x9f, 0x5d, 0xdf, 0x38, 0x08, 0xc1, 0x6e, 0xe3, 0x44, 0x0f, 0xce, 0xcc, 0x1a, 0x5d, 0xb7,
   0x2d, 0xcc, 0xbe, 0x62, 0xf8, 0xe2, 0xb9, 0xa8, 0xf5, 0x8f, 0xc0, 0xf0, 0x13, 0x83, 0x68, 0xdc,
   0x02, 0xbd, 0x3a, 0x09, 0xf2, 0x45, 0x6a, 0x30, 0xa5, 0xa2, 0x2c, 0x0d, 0x69, 0xd8, 0xf8, 0xb4,
   0xf7, 0x91, 0x57, 0x3c, 0xac, 0x53, 0x00, 0x2e, 0x44, 0xa1, 0xb2, 0x50, 0x93, 0xc6, 0xc6, 0x09]

/-- The entry, with a hash and a signature. -/
def strayEntry (currentHash signature : String) : Json :=
  .obj (strayFields ++ [("current_hash", .str currentHash), ("signature", .str signature)])

/-- The proof block around it. -/
def strayProof (protocolHash currentHash signature : String) : Json :=
  .obj [("protocol", loanProtocol),
    ("instance", .obj [("instance_id", .str "loan_1"), ("protocol_hash", .str protocolHash)]),
    ("ledger", .arr [strayEntry currentHash signature]), ("instance_root", .str currentHash)]

/-- A package of the proof. -/
def packageOf (publicKey signature : String) (proof : Json) : Json :=
  .obj [("type", .str packageType), ("public_key", .str publicKey), ("signature", .str signature), ("proof", proof)]

section

variable {publicKey signature protocolHash currentHash entrySignature : String} {key : Bytes}

theorem stray_replay (hcurrent : currentHash = canonicalHash strayPayload)
    (hentry : verifies ed key (canonical strayPayload) (.str entrySignature) = true) :
    replay ed key loanProtocol 0 (.str "pending") .null [strayEntry currentHash entrySignature] =
      .ok (.ok (.str "approved", [currentHash])) := by
  have hhash : (strayEntry currentHash entrySignature).getD "current_hash" .null =
      .ok (.str (canonicalHash strayPayload)) := by
    rw [← hcurrent]
    rfl
  have hsigned : ((strayEntry currentHash entrySignature).get? "signature").getD .null = .str entrySignature := rfl
  have hpayload : buildEntryPayload (strayEntry currentHash entrySignature) .null = .ok strayPayload := rfl
  have hvalid : validTransition (.str "pending") (.str "approved")
      [.obj [("from_state", .str "pending"), ("to_state", .str "approved")]] = .ok true := by rfl
  have hversion : (strayEntry currentHash entrySignature).getD "version" .null = .ok (.int 1) := rfl
  rw [replay_step rfl hversion (by decide) hpayload hhash (hsigned ▸ hentry) rfl rfl rfl hvalid,
    ← hcurrent, replay]
  rfl

/-- A package whose entry is hashed and signed is accepted. -/
theorem stray_accepted (hkey : verifyKey (.str publicKey) = some key)
    (hthere : (Json.str publicKey).truthy = true ∧ (Json.str signature).truthy = true)
    (hproof : verifies ed key (canonical (strayProof protocolHash currentHash entrySignature)) (.str signature) = true)
    (hprotocol : protocolHash = canonicalHash loanProtocol) (hcurrent : currentHash = canonicalHash strayPayload)
    (hentry : verifies ed key (canonical strayPayload) (.str entrySignature) = true) :
    (verifyPackage ed (packageOf publicKey signature (strayProof protocolHash currentHash entrySignature))).valid = true := by
  have hprot : (strayProof protocolHash currentHash entrySignature).getD "protocol" .null = .ok loanProtocol := rfl
  have hinst : (strayProof protocolHash currentHash entrySignature).getD "instance" .null =
      .ok (.obj [("instance_id", .str "loan_1"), ("protocol_hash", .str protocolHash)]) := rfl
  have hhash : (Json.obj [("instance_id", .str "loan_1"), ("protocol_hash", .str protocolHash)]).getD "protocol_hash"
      .null = .ok (.str (canonicalHash loanProtocol)) := by
    rw [← hprotocol]
    rfl
  exact verifyPackage_valid rfl rfl rfl rfl ⟨hthere.1, rfl, hthere.2⟩ hkey hproof hprot hinst rfl rfl ⟨rfl, rfl⟩ hhash
    rfl rfl (stray_replay hcurrent hentry) rfl

end

/-- The package. -/
def strayPackage : Json :=
  packageOf (toHex rfcPublicKey) (toHex strayProofSignature)
    (strayProof (canonicalHash loanProtocol) (canonicalHash strayPayload) (toHex strayEntrySignature))

/-- A verifier that knows the two signatures. -/
def strayEd25519 : Ed25519 :=
  .ofTable rfcPublicKey [(canonical strayPayload, strayEntrySignature),
    (canonical (strayProof (canonicalHash loanProtocol) (canonicalHash strayPayload) (toHex strayEntrySignature)),
      strayProofSignature)]

theorem strayPackage_accepted : (verifyPackage strayEd25519 strayPackage).valid = true := by
  have hkey : verifyKey (.str (toHex rfcPublicKey)) = some rfcPublicKey := by decide +kernel
  refine stray_accepted hkey ⟨by decide +kernel, by decide +kernel⟩ ?_ rfl rfl ?_
  · rw [verifies, fromHex_toHex]
    exact Ed25519.ofTable_of_mem (by simp)
  · rw [verifies, fromHex_toHex]
    exact Ed25519.ofTable_of_mem (by simp)

theorem strayPackage_not_carries : ¬ Carries (instanceOf strayPackage)
    (field (protocolOf strayPackage) "initial_state") (ledgerOf strayPackage) := by
  rintro ⟨hfrom, -⟩
  have hfrom : Same (.str "rejected") (.str "pending") := hfrom
  exact absurd hfrom (by decide)

/-- It is no path. -/
theorem strayPackage_path_iff :
    IsPath (protocolOf strayPackage) (instanceOf strayPackage) (verifyPackage strayEd25519 strayPackage).finalState
        (ledgerOf strayPackage) ↔
      Carries (instanceOf strayPackage) (field (protocolOf strayPackage) "initial_state") (ledgerOf strayPackage) :=
  path_iff strayPackage_accepted

/-- **An accepted package need not be a path of its protocol.** -/
theorem stray_not_path : ¬ ∀ (ed : Ed25519) (package : Json), (verifyPackage ed package).valid = true →
    IsPath (protocolOf package) (instanceOf package) (verifyPackage ed package).finalState (ledgerOf package) := by
  intro h
  have hfirst := (h strayEd25519 strayPackage strayPackage_accepted).first
  have hfrom : Same (.str "rejected") (.str "pending") := hfirst _ rfl
  exact absurd hfrom (by decide)

end VerifyCore
end ProvableAi
