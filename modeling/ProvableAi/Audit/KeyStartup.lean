/-
# Registering the signer at startup

`register_or_update` of `audit_keyregistry.py`, which `auto_register_signer` calls
when the server starts: "if another active key for this tenant exists, rotate to
this one".  The registry is append-only, so the active row of a key that was
rotated out is still there, and it is what the method asks for first: it returns
the old row and rotates nothing.  A key that keeps its id and comes with another
public key ends there too.

`startup_installs_iff`: after any history of calls, a `register_or_update` that
returns has made its key the active one, for good, exactly if the tenant had no
active row of that id, or the key was the active one already.
-/

import ProvableAi.Audit.KeyHistory

namespace ProvableAi
namespace KeyRegistry

open Lockstep

/-- `get_active`. -/
def getActive (table : List KeyRow) (tenantId : PyStr) : Except PyErr (Option KeyRecord) :=
  match encode tenantId with
  | .ok tenantId => .ok ((selectActive table tenantId).map fun r => r.toKeyRecord)
  | .error e => .error e

/-- What `auto_register_signer` registers, from what `get_key_id` and `get_public_key`
return. -/
def signerKey (keyId publicKey tenantId : String) : KeyArgs where
  keyId := .ofString keyId
  publicKey := .ofString publicKey
  tenantId := .ofString tenantId
  algorithm := .ofString "Ed25519"
  source := .ofString "env"

/-- `auto_register_signer`. -/
def autoRegisterSigner (table : List KeyRow) (now keyId publicKey tenantId : String) :
    Except PyErr KeyRecord × List KeyRow := registerOrUpdate table now (signerKey keyId publicKey tenantId)

/-! ### The property -/

/-- **The key is installed**: it is the active one of its tenant, and registering it
again adds no row. -/
structure Installed (table : List KeyRow) (a : KeyArgs) : Prop where
  active : ∃ r, getActive table a.tenantId = .ok (some r) ∧ encode a.keyId = .ok r.keyId ∧
    encode a.publicKey = .ok r.publicKey
  again : ∀ now, (registerOrUpdate table now a).2 = table

/-- No row of the tenant ever made the key active. -/
def NeverActive (table : List KeyRow) (k t : String) : Prop :=
  ∀ r ∈ table, r.tenantId = t → r.status = .active → r.keyId ≠ k

/-- The tenant's latest active row is of the key. -/
def IsActive (table : List KeyRow) (a : KeyArgs) (k t : String) : Prop :=
  ∃ r, selectActive table t = some r ∧ r.keyId = k ∧ encode a.publicKey = .ok r.publicKey

/-- What the rows before the call have to be. -/
def Installable (table : List KeyRow) (a : KeyArgs) : Prop :=
  ∀ k t, encode a.keyId = .ok k → encode a.tenantId = .ok t → NeverActive table k t ∨ IsActive table a k t

/-! ### What the calls keep -/

/-- Every call keeps the chains, a rotation that fails between its inserts too. -/
theorem Chained.step {table : List KeyRow} (h : Chained table) (call : Call) :
    Chained (KeyRegistry.step table call).2 := by
  have heffect := step_effect h call
  generalize KeyRegistry.step table call = out at heffect
  cases heffect with
  | refused => exact h
  | known => exact h
  | first c => exact h.insert c
  | replaced old c k t n => exact (h.insert _).insert c
  | half e old k t n => exact h.insert _

theorem Chained.final (calls : List Call) : Chained (Lockstep.final KeyRegistry.step [] calls) := by
  induction calls using List.reverseRecOn with
  | nil => exact Chained.nil
  | append_singleton calls call ih =>
    rw [final_concat]
    exact ih.step call

section

variable {table table' : List KeyRow} {now k t : String} {a : KeyArgs} {record : KeyRecord}

theorem selectActiveKey_eq_none_iff : selectActiveKey table k t = none ↔ NeverActive table k t := by
  rw [selectActiveKey, List.getLast?_eq_none_iff, List.filter_eq_nil_iff]
  simp only [mem_tenantRows, decide_eq_true_eq, not_and, NeverActive, and_imp]

/-- The row of a key that an insert has made active. -/
structure Inserted (table' : List KeyRow) (a : KeyArgs) (k t : String) : Prop where
  active : IsActive table' a k t
  known : selectActiveKey table' k t ≠ none

theorem inserted_of_insertRow (h : Chained table) (hk : encode a.keyId = .ok k) (ht : encode a.tenantId = .ok t)
    {notes : Option PyStr} (hinsert : insertRow table (a.activeRow now notes) = (.ok record, table')) :
    Inserted table' a k t := by
  cases hc : (a.activeRow now notes).content with
  | error e =>
    rw [insertRow_error hc] at hinsert
    cases hinsert
  | ok c =>
    rw [insertRow_ok h hc] at hinsert
    obtain ⟨-, rfl⟩ := Prod.mk.inj hinsert
    have hopens := (opens_of_content hc hk ht).1
    obtain ⟨_, _, p, _, _, _, -, -, hp, -, -, -, hcp⟩ := activeRow_content.1 hc
    have hactive := selectActive_concat h hopens
    have hkey : (nextRow table c).keyId = k := hopens.keyId
    refine ⟨⟨_, hactive, hkey, ?_⟩, ?_⟩
    · rw [hp, hcp]
      rfl
    · rw [← hkey]
      exact selectActiveKey_ne_none hactive

/-- **What a returned `register_or_update` has done**: nothing, the id having an active
row, or it has inserted the key. -/
theorem registerOrUpdate_returned (h : Chained table) (hreturn : registerOrUpdate table now a = (.ok record, table')) :
    ∃ k t, encode a.keyId = .ok k ∧ encode a.tenantId = .ok t ∧
      ((selectActiveKey table k t ≠ none ∧ table' = table) ∨ (NeverActive table k t ∧ Inserted table' a k t)) := by
  rw [registerOrUpdate] at hreturn
  cases hk : encode a.keyId with
  | error e =>
    rw [hk] at hreturn
    cases hreturn
  | ok k =>
    cases ht : encode a.tenantId with
    | error e =>
      rw [hk, ht] at hreturn
      cases hreturn
    | ok t =>
      rw [hk, ht] at hreturn
      dsimp only at hreturn
      refine ⟨k, t, rfl, rfl, ?_⟩
      cases hexisting : selectActiveKey table k t with
      | some existing =>
        rw [hexisting] at hreturn
        exact .inl ⟨Option.some_ne_none _, (Prod.mk.inj hreturn).2.symm⟩
      | none =>
        rw [hexisting] at hreturn
        dsimp only at hreturn
        refine .inr ⟨selectActiveKey_eq_none_iff.1 hexisting, ?_⟩
        cases hactive : selectActive table t with
        | none =>
          rw [hactive] at hreturn
          exact inserted_of_insertRow h hk ht hreturn
        | some active =>
          rw [hactive] at hreturn
          dsimp only at hreturn
          split_ifs at hreturn with hne
          · rw [replaceKey] at hreturn
            cases hc : (active.retiredRow now a.tenantId a.keyId autoRetired).content with
            | error e =>
              rw [insertRow_error hc] at hreturn
              cases hreturn
            | ok c =>
              rw [insertRow_ok h hc] at hreturn
              dsimp only at hreturn
              cases hinsert : insertRow (table ++ [nextRow table c]) (a.activeRow now none) with
              | mk result after =>
                rw [hinsert] at hreturn
                cases result with
                | error e => cases hreturn
                | ok r =>
                  obtain ⟨-, rfl⟩ := Prod.mk.inj hreturn
                  exact inserted_of_insertRow (h.insert c) hk ht hinsert
          · exact inserted_of_insertRow h hk ht hreturn

/-- An id with an active row is never inserted again. -/
theorem registerOrUpdate_known (hk : encode a.keyId = .ok k) (ht : encode a.tenantId = .ok t)
    (hknown : selectActiveKey table k t ≠ none) (now : String) : (registerOrUpdate table now a).2 = table := by
  obtain ⟨existing, hexisting⟩ := Option.ne_none_iff_exists'.1 hknown
  simp only [registerOrUpdate, hk, ht, hexisting]

theorem installed_iff (hk : encode a.keyId = .ok k) (ht : encode a.tenantId = .ok t)
    (hknown : selectActiveKey table k t ≠ none) : Installed table a ↔ IsActive table a k t := by
  constructor
  · rintro ⟨⟨r, hr, hrk, hrp⟩, -⟩
    rw [getActive, ht] at hr
    obtain ⟨row, hrow, rfl⟩ := Option.map_eq_some_iff.1 (Except.ok.inj hr)
    exact ⟨row, hrow, Except.ok.inj (hrk.symm.trans hk), hrp⟩
  · rintro ⟨r, hr, hrk, hrp⟩
    refine ⟨⟨r.toKeyRecord, ?_, ?_, hrp⟩, registerOrUpdate_known hk ht hknown⟩
    · rw [getActive, ht]
      exact congrArg (fun row => Except.ok (row.map fun r => r.toKeyRecord)) hr
    · rw [hk, ← hrk]

theorem installs_iff (h : Chained table) (hreturn : registerOrUpdate table now a = (.ok record, table')) :
    Installed table' a ↔ Installable table a := by
  obtain ⟨k, t, hk, ht, hcases⟩ := registerOrUpdate_returned h hreturn
  have hcond : Installable table a ↔ NeverActive table k t ∨ IsActive table a k t := by
    refine ⟨fun h => h k t hk ht, fun h k' t' hk' ht' => ?_⟩
    obtain rfl := Except.ok.inj (hk.symm.trans hk')
    obtain rfl := Except.ok.inj (ht.symm.trans ht')
    exact h
  rw [hcond]
  rcases hcases with ⟨hknown, rfl⟩ | ⟨hnever, hinserted⟩
  · rw [installed_iff hk ht hknown]
    refine ⟨.inr, fun h => h.resolve_left fun hnever => hknown ?_⟩
    exact selectActiveKey_eq_none_iff.2 hnever
  · exact iff_of_true ((installed_iff hk ht hinserted.known).2 hinserted.active) (.inl hnever)

end

/-- **When startup registration installs the signer's key**: after any history, a call
that returns has installed its key exactly if no row of the tenant had made the id
active before, or the latest active row is the key's. -/
theorem startup_installs_iff (calls : List Call) {now : String} {a : KeyArgs} {record : KeyRecord}
    {table' : List KeyRow} (hreturn : registerOrUpdate (final step [] calls) now a = (.ok record, table')) :
    Installed table' a ↔ Installable (final step [] calls) a := installs_iff (Chained.final calls) hreturn

/-- The first key of a registry. -/
theorem startup_first : registerOrUpdate (final step [] []) "2026-01-01T00:00:00Z" (signerKey "key-001" "aa" "bank") =
    (.ok (nextRow [] firstContent).toKeyRecord, [nextRow [] firstContent]) := by
  have hc : ((signerKey "key-001" "aa" "bank").activeRow "2026-01-01T00:00:00Z" none).content = .ok firstContent :=
    activeRow_content.2 ⟨"key-001", "bank", "aa", "Ed25519", "env", none, encode_ofString _, encode_ofString _,
      encode_ofString _, encode_ofString _, encode_ofString _, rfl, rfl⟩
  have hnone : selectActiveKey [] "key-001" "bank" = none := rfl
  have hactive : selectActive [] "bank" = none := rfl
  have hempty : final step [] [] = [] := rfl
  have hregister : registerOrUpdate [] "2026-01-01T00:00:00Z" (signerKey "key-001" "aa" "bank") =
      insertRow [] ((signerKey "key-001" "aa" "bank").activeRow "2026-01-01T00:00:00Z" none) := by
    simp only [registerOrUpdate, signerKey, encode_ofString, hnone, hactive]
  rw [hempty, hregister, insertRow_ok Chained.nil hc]
  rfl

theorem startup_first_installed : Installed [nextRow [] firstContent] (signerKey "key-001" "aa" "bank") ↔
    Installable (final step [] []) (signerKey "key-001" "aa" "bank") := startup_installs_iff [] startup_first

/-- The same for a server that starts. -/
theorem autoRegisterSigner_installs_iff (calls : List Call) {now keyId publicKey tenantId : String}
    {record : KeyRecord} {table' : List KeyRow}
    (hreturn : autoRegisterSigner (final step [] calls) now keyId publicKey tenantId = (.ok record, table')) :
    Installed table' (signerKey keyId publicKey tenantId) ↔
      Installable (final step [] calls) (signerKey keyId publicKey tenantId) :=
  installs_iff (Chained.final calls) hreturn

/-- A known key is left alone, also where another one is active. -/
theorem known_not_installed (now : String) (hk : encode a.keyId = .ok k) (ht : encode a.tenantId = .ok t)
    (hknown : selectActiveKey table k t ≠ none) {r : KeyRow} (hactive : selectActive table t = some r) (hne : r.keyId ≠ k) :
    ∃ record, registerOrUpdate table now a = (.ok record, table) ∧ ¬ Installed table a := by
  obtain ⟨existing, hexisting⟩ := Option.ne_none_iff_exists'.1 hknown
  refine ⟨existing.toKeyRecord, by simp only [registerOrUpdate, hk, ht, hexisting], fun h => ?_⟩
  obtain ⟨s, hs, hsk, -⟩ := (installed_iff hk ht hknown).1 h
  obtain rfl := Option.some.inj (hactive.symm.trans hs)
  exact hne hsk

/-! ### A key that comes back at startup -/

/-- The columns of the row that retires the first key. -/
def firstRetired : KeyContent :=
  ⟨"key-001", "bank", "aa", "Ed25519", "env", .retired, "2026-01-01T00:00:00Z", some "2026-02-01T00:00:00Z",
    some "key-002", none⟩

/-- The columns of the second key's row. -/
def secondContent : KeyContent :=
  ⟨"key-002", "bank", "bb", "Ed25519", "env", .active, "2026-02-01T00:00:00Z", none, none, none⟩

theorem step_secondKey {table : List KeyRow} (h : Chained table)
    (hactive : selectActive table "bank" = some (nextRow [] firstContent)) :
    (step table secondKey).2 = table ++ [nextRow table firstRetired] ++
      [nextRow (table ++ [nextRow table firstRetired]) secondContent] := by
  have hretired : ((nextRow [] firstContent).retiredRow "2026-02-01T00:00:00Z" (.ofString "bank") (.ofString "key-002")
      none).content = .ok firstRetired :=
    retiredRow_content.2 ⟨"bank", "key-002", none, encode_ofString _, encode_ofString _, rfl, rfl⟩
  have hc : ((bankKey "key-002" (.ofString "bb")).activeRow "2026-02-01T00:00:00Z" none).content = .ok secondContent :=
    activeRow_content.2 ⟨"key-002", "bank", "bb", "Ed25519", "env", none, encode_ofString _, encode_ofString _,
      encode_ofString _, encode_ofString _, encode_ofString _, rfl, rfl⟩
  have hbank : encode (bankKey "key-002" (.ofString "bb")).tenantId = .ok "bank" := encode_ofString "bank"
  have hreplace : replaceKey table "2026-02-01T00:00:00Z" (bankKey "key-002" (.ofString "bb")) (nextRow [] firstContent)
      none none = (.ok ((nextRow (table ++ [nextRow table firstRetired]) secondContent).toKeyRecord,
        (nextRow table firstRetired).toKeyRecord), table ++ [nextRow table firstRetired] ++
          [nextRow (table ++ [nextRow table firstRetired]) secondContent]) := by
    have hretired : ((nextRow [] firstContent).retiredRow "2026-02-01T00:00:00Z"
        (bankKey "key-002" (.ofString "bb")).tenantId (bankKey "key-002" (.ofString "bb")).keyId none).content =
          .ok firstRetired := hretired
    rw [replaceKey, insertRow_ok h hretired]
    dsimp only
    rw [insertRow_ok (h.insert _) hc]
  rw [secondKey, step, rotateKey, hbank]
  dsimp only
  rw [hactive]
  dsimp only
  rw [hreplace]

/-- **Startup with a key that was rotated out installs nothing**: `key-002` stays the
active key. -/
theorem comeback_not_installed : ¬ ∀ (calls : List Call) (now : String) (a : KeyArgs) (record : KeyRecord)
    (table' : List KeyRow), registerOrUpdate (final step [] calls) now a = (.ok record, table') → Installed table' a := by
  intro h
  have hfirst : Chained (step [] firstKey).2 := firstKey_inv.chained
  have hopensFirst : Opens firstContent "key-001" "bank" "2026-01-01T00:00:00Z" := ⟨rfl, rfl, rfl, rfl⟩
  have hactive : selectActive (step [] firstKey).2 "bank" = some (nextRow [] firstContent) := by
    rw [step_firstKey]
    exact selectActive_concat Chained.nil hopensFirst
  have htable : final step [] [firstKey, secondKey] = _ := final_two.trans (step_secondKey hfirst hactive)
  have hopens : Opens secondContent "key-002" "bank" "2026-02-01T00:00:00Z" := ⟨rfl, rfl, rfl, rfl⟩
  have hlast := selectActive_concat (hfirst.insert firstRetired) hopens
  rw [← htable] at hlast
  -- the first key's row is still there
  have hmem : nextRow [] firstContent ∈ final step [] [firstKey, secondKey] := by
    rw [htable, step_firstKey]
    simp
  have hknown : selectActiveKey (final step [] [firstKey, secondKey]) "key-001" "bank" ≠ none := fun hnone =>
    selectActiveKey_eq_none_iff.1 hnone _ hmem rfl rfl rfl
  have hk : encode (signerKey "key-001" "aa" "bank").keyId = .ok "key-001" := encode_ofString "key-001"
  have ht : encode (signerKey "key-001" "aa" "bank").tenantId = .ok "bank" := encode_ofString "bank"
  have hne : secondContent.keyId ≠ "key-001" := by decide
  obtain ⟨record, hreturn, hnot⟩ := known_not_installed "2026-03-01T00:00:00Z" hk ht hknown hlast hne
  exact hnot (h _ _ _ _ _ hreturn)

end KeyRegistry
end ProvableAi
