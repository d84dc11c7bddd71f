/-
# Drift over time

The tables of `drift_detector.py` and `GET /system/drift` of `server/main.py`.

Without `env_b` the endpoint is to compare "latest vs previous prod snapshot".
It looks for a snapshot of the environment first, and then takes the two latest
snapshots of the tenant, whatever their environments.  `temporal_iff`: it
compares the two latest of the environment exactly if these are the two latest of
the tenant.

Rows are kept in the order they were saved in, and a query orders by
`recorded_at` alone.  The order of rows with one `recorded_at` is that of saving
here; nothing below is about such rows.
-/

import ProvableAi.Drift.Detector
import ProvableAi.Audit.Query

namespace ProvableAi
namespace Drift

/-! ### The tables -/

/-- A row of `drift_events`. -/
structure DriftEvent where
  tenantId : String
  envA : String
  envB : String
  snapAId : String
  snapBId : String
  drifted : Bool
  driftType : Option DriftType
  severity : Severity
  details : Json
  detectedAt : String

/-- The tables `snapshots` and `drift_events`. -/
structure DriftStore where
  snapshots : List SystemSnapshot
  events : List DriftEvent

/-- `save_snapshot`: `INSERT OR IGNORE`, and `snapshot_id` is `UNIQUE`. -/
def saveSnapshot (table : List SystemSnapshot) (snap : SystemSnapshot) : List SystemSnapshot :=
  if table.any fun s => s.snapshotId = snap.snapshotId then table else table ++ [snap]

/-- `ORDER BY recorded_at DESC`. -/
def latestFirst (rows : List SystemSnapshot) : List SystemSnapshot :=
  rows.insertionSort fun a b => b.recordedAt ≤ a.recordedAt

/-- The snapshots of a tenant, as they were saved. -/
def history (table : List SystemSnapshot) (tenantId : String) : List SystemSnapshot :=
  table.filter fun s => s.tenantId = tenantId

/-- Those of an environment. -/
def ofEnvironment (environment : String) (rows : List SystemSnapshot) : List SystemSnapshot :=
  rows.filter fun s => s.environment = environment

/-- `get_latest`. -/
def getLatest (table : List SystemSnapshot) (tenantId environment : String) : Option SystemSnapshot :=
  (latestFirst (ofEnvironment environment (history table tenantId))).head?

/-- `list_snapshots`. -/
def listSnapshots (table : List SystemSnapshot) (tenantId : String) (limit : ℤ) : List SystemSnapshot :=
  let limit := min limit 100
  -- a negative `LIMIT` of SQLite is none
  if limit < 0 then latestFirst (history table tenantId)
  else (latestFirst (history table tenantId)).take limit.toNat

/-- `record_drift_event`, at the time `now`. -/
def recordDriftEvent (events : List DriftEvent) (result : DriftResult) (now : String) : List DriftEvent :=
  events ++ [
    { tenantId := result.snapA.tenantId
      envA := result.snapA.environment, envB := result.snapB.environment
      snapAId := result.snapA.snapshotId, snapBId := result.snapB.snapshotId
      drifted := result.drifted, driftType := result.driftType, severity := result.severity
      details := result.details, detectedAt := now }]

/-! ### The endpoint -/

/-- What `GET /system/drift` answers: a 404 with its message, or a result with its status code. -/
inductive DriftResponse where
  | noSnapshot (message : String)
  | compared (status : ℕ) (result : DriftResult)

/-- The rest of the endpoint, once it has its two snapshots. -/
def reportDrift (store : DriftStore) (snapA snapB : SystemSnapshot) (now : String) : DriftResponse × DriftStore :=
  let result := compare snapA snapB
  let status := if result.drifted && result.severity = .critical then 500 else 200
  (.compared status result, { store with events := recordDriftEvent store.events result now })

/-- `GET /system/drift`.  `taken` is what `take_snapshot` returns when the endpoint calls it. -/
def systemDrift (store : DriftStore) (tenantId envA : String) (envB : Option String) (taken : SystemSnapshot)
    (now : String) : DriftResponse × DriftStore :=
  match getLatest store.snapshots tenantId envA with
  | none =>
    (.noSnapshot ("No snapshot for tenant=" ++ tenantId ++ " env=" ++ envA ++ ". POST /system/snapshot first."), store)
  | some snapA =>
    match Audit.given envB with
    | some envB =>
      match getLatest store.snapshots tenantId envB with
      | none => (.noSnapshot ("No snapshot for tenant=" ++ tenantId ++ " env=" ++ envB ++ "."), store)
      | some snapB => reportDrift store snapA snapB now
    | none =>
      match listSnapshots store.snapshots tenantId 2 with
      | latest :: previous :: _ => reportDrift store previous latest now
      | _ => reportDrift { store with snapshots := saveSnapshot store.snapshots taken } snapA taken now

/-- The endpoint, asked about one environment, compares its latest snapshot with the one before. -/
def LikeWithLike (store : DriftStore) (tenantId env : String) (taken : SystemSnapshot) (now : String) : Prop :=
  ∃ earlier previous latest status,
    ofEnvironment env (history store.snapshots tenantId) = earlier ++ [previous, latest] ∧
    (systemDrift store tenantId env none taken now).1 = .compared status (compare previous latest)

/-! ### The latest come last -/

section

variable {rows : List SystemSnapshot}

/-- Rows that were recorded one after the other are listed in the opposite order. -/
theorem latestFirst_eq (h : rows.Pairwise fun a b => a.recordedAt < b.recordedAt) : latestFirst rows = rows.reverse := by
  have hsorted : rows.reverse.Pairwise fun a b => b.recordedAt < a.recordedAt := List.pairwise_reverse.2 h
  have htotal : Std.Total fun a b : SystemSnapshot => b.recordedAt ≤ a.recordedAt := ⟨fun a b => le_total _ _⟩
  have htrans : IsTrans SystemSnapshot fun a b => b.recordedAt ≤ a.recordedAt := ⟨fun _ _ _ h h' => le_trans h' h⟩
  refine List.Perm.eq_of_pairwise ?_
    (List.pairwise_insertionSort (fun a b : SystemSnapshot => b.recordedAt ≤ a.recordedAt) rows) (hsorted.imp le_of_lt)
    ((List.perm_insertionSort _ rows).trans (List.reverse_perm rows).symm)
  intro a b ha hb hab hba
  -- two rows with one time are one row
  have ha := (List.perm_insertionSort _ rows).mem_iff.1 ha
  have hb := List.mem_reverse.1 hb
  by_contra hne
  rcases List.Pairwise.forall_of_forall_of_flip (R := fun a b => a ≠ b → a.recordedAt ≠ b.recordedAt)
    (fun _ _ h => absurd rfl h) (h.imp fun hlt _ => hlt.ne) (h.imp fun hlt _ => hlt.ne') ha hb hne
    (le_antisymm hba hab) with ⟨⟩

/-- The last two of a list with two items. -/
theorem exists_last_two (h : 2 ≤ rows.length) : ∃ earlier a b, rows = earlier ++ [a, b] := by
  rcases List.eq_nil_or_concat rows with rfl | ⟨init, b, rfl⟩
  · simp at h
  · rcases List.eq_nil_or_concat init with rfl | ⟨earlier, a, rfl⟩
    · simp at h
    · exact ⟨earlier, a, b, by simp⟩

end

variable {store : DriftStore} {t env : String} {taken : SystemSnapshot} {now : String}

/-- What the endpoint compares: the two latest snapshots of the tenant. -/
theorem systemDrift_temporal {earlier : List SystemSnapshot} {a b : SystemSnapshot}
    (hinc : (history store.snapshots t).Pairwise fun a b => a.recordedAt < b.recordedAt)
    (hlast : history store.snapshots t = earlier ++ [a, b])
    (hsome : ofEnvironment env (history store.snapshots t) ≠ []) :
    systemDrift store t env none taken now = reportDrift store a b now := by
  have henv : latestFirst (ofEnvironment env (history store.snapshots t)) =
      (ofEnvironment env (history store.snapshots t)).reverse := latestFirst_eq (hinc.filter _)
  have hlist : listSnapshots store.snapshots t 2 = [b, a] := by
    rw [listSnapshots, latestFirst_eq hinc, hlast]
    simp
  obtain ⟨s, hs⟩ : ∃ s, getLatest store.snapshots t env = some s := by
    rw [getLatest, henv, List.head?_reverse]
    exact ⟨_, List.getLast?_eq_getLast_of_ne_nil hsome⟩
  rw [systemDrift, hs]
  simp only [Audit.given, Option.filter_none, hlist]

/-- The results of two comparisons are equal only if the snapshots are. -/
theorem compare_inj {a b a' b' : SystemSnapshot} (h : compare a b = compare a' b') : a = a' ∧ b = b' := by
  have hsnaps : ∀ x y : SystemSnapshot, (compare x y).snapA = x ∧ (compare x y).snapB = y := by
    intro x y
    rw [compare]
    split <;> exact ⟨rfl, rfl⟩
  exact ⟨by rw [← (hsnaps a b).1, h, (hsnaps a' b').1], by rw [← (hsnaps a b).2, h, (hsnaps a' b').2]⟩

/-- **Drift over time compares like with like exactly if the two latest snapshots of the tenant are both of the
environment.** -/
theorem temporal_iff (saved : List SystemSnapshot) (events : List DriftEvent) (t env : String) (taken : SystemSnapshot)
    (now : String)
    (hinc : (history (saved.foldl saveSnapshot []) t).Pairwise fun a b => a.recordedAt < b.recordedAt)
    (htwo : 2 ≤ (ofEnvironment env (history (saved.foldl saveSnapshot []) t)).length) :
    LikeWithLike ⟨saved.foldl saveSnapshot [], events⟩ t env taken now ↔
      ∃ earlier a b, history (saved.foldl saveSnapshot []) t = earlier ++ [a, b] ∧ a.environment = env ∧
        b.environment = env := by
  obtain ⟨earlier, a, b, hlast⟩ := exists_last_two (htwo.trans (List.length_filter_le _ _))
  have hsome : ofEnvironment env (history (saved.foldl saveSnapshot []) t) ≠ [] := by
    intro hnil
    rw [hnil] at htwo
    simp at htwo
  have hdrift : systemDrift ⟨saved.foldl saveSnapshot [], events⟩ t env none taken now = _ :=
    systemDrift_temporal hinc hlast hsome
  constructor
  · rintro ⟨earlier', previous, latest, status, henv, hanswer⟩
    rw [hdrift, reportDrift] at hanswer
    obtain ⟨-, hresult⟩ := DriftResponse.compared.inj hanswer
    obtain ⟨rfl, rfl⟩ := compare_inj hresult
    have hmem : ∀ s ∈ earlier' ++ [a, b], s.environment = env := by
      intro s hs
      rw [← henv] at hs
      simpa using (List.mem_filter.1 hs).2
    exact ⟨earlier, a, b, hlast, hmem a (by simp), hmem b (by simp)⟩
  · rintro ⟨earlier', a', b', hlast', ha, hb⟩
    obtain ⟨rfl, hab⟩ := List.append_inj' (hlast'.symm.trans hlast) rfl
    obtain ⟨rfl, rfl⟩ : a' = a ∧ b' = b := by simpa using hab
    refine ⟨ofEnvironment env earlier', a', b', _, ?_, congrArg Prod.fst hdrift⟩
    simp only [hlast', ofEnvironment, List.filter_append]
    simp [ha, hb]

/-- A snapshot of an empty ledger. -/
def emptySnapshot (id environment recordedAt : String) : SystemSnapshot :=
  ⟨id, "bank", environment, "root", 0, "chain", 0, recordedAt⟩

/-- Two snapshots of production and one of staging before them. -/
def stagingFirst : List SystemSnapshot :=
  [emptySnapshot "s0" "staging" "2026-01-01", emptySnapshot "s1" "prod" "2026-01-02",
    emptySnapshot "s2" "prod" "2026-01-03"]

theorem temporal_staging_first : LikeWithLike ⟨stagingFirst.foldl saveSnapshot [], []⟩ "bank" "prod"
    (emptySnapshot "s3" "prod" "2026-01-04") "2026-01-04" :=
  (temporal_iff stagingFirst [] "bank" "prod" (emptySnapshot "s3" "prod" "2026-01-04") "2026-01-04"
    (by decide +kernel) (by decide +kernel)).2
    ⟨[emptySnapshot "s0" "staging" "2026-01-01"], emptySnapshot "s1" "prod" "2026-01-02",
      emptySnapshot "s2" "prod" "2026-01-03", by rfl, rfl, rfl⟩

/-- Two snapshots of production and one of staging after them. -/
def stagingLast : List SystemSnapshot :=
  [emptySnapshot "s1" "prod" "2026-01-01", emptySnapshot "s2" "prod" "2026-01-02",
    emptySnapshot "s3" "staging" "2026-01-03"]

/-- Production is compared with staging. -/
theorem temporal_staging_last : ¬ LikeWithLike ⟨stagingLast.foldl saveSnapshot [], []⟩ "bank" "prod"
    (emptySnapshot "s4" "prod" "2026-01-04") "2026-01-04" := by
  rintro ⟨earlier, previous, latest, status, henv, hanswer⟩
  have hlatest : (systemDrift ⟨stagingLast.foldl saveSnapshot [], []⟩ "bank" "prod" none
      (emptySnapshot "s4" "prod" "2026-01-04") "2026-01-04").1 =
      .compared 200 (compare (emptySnapshot "s2" "prod" "2026-01-02") (emptySnapshot "s3" "staging" "2026-01-03")) := by
    rfl
  obtain ⟨-, hresult⟩ := DriftResponse.compared.inj (hlatest.symm.trans hanswer)
  obtain ⟨-, rfl⟩ := compare_inj hresult
  have hmem : emptySnapshot "s3" "staging" "2026-01-03" ∈
      ofEnvironment "prod" (history (stagingLast.foldl saveSnapshot []) "bank") := by rw [henv]; simp
  exact absurd (List.mem_filter.1 hmem).2 (by decide)

end Drift
end ProvableAi
