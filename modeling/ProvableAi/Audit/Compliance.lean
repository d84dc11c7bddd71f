/-
# The compliance pack

`GET /audit/compliance` asks the log for the rows of a period with `limit=10000`,
which `query` cuts to 1000, and builds the evidence for three frameworks from the
entries it gets: the newest ones.

Of the pack the model has what is counted and what is said of the counts.  The
texts that name no count, the versions, samples and provenance are left out; how
a rate is written is the parameter `percent`.  `covers_iff` says when the
pack speaks of the whole period.
-/

import ProvableAi.Audit.Query

namespace ProvableAi
namespace Audit

/-! ### The pack -/

/-- What `_compute_stats` returns. -/
structure Stats where
  total : ℕ
  valid : ℕ
  invalid : ℕ
  validRate : String
  invalidRate : String

/-- `raw_metrics`. -/
structure RawMetrics where
  total : ℕ
  valid : ℕ
  invalid : ℕ
  validRatePct : String
  invalidRatePct : String
  periodFrom : Option String
  periodTo : Option String

/-- The evidence for one framework. -/
structure Framework where
  framework : String
  status : String
  tenantId : String
  periodFrom : Option String
  periodTo : Option String
  /-- `total_verifications` or `total_decisions` of the attestation. -/
  total : ℕ
  rawMetrics : Option RawMetrics
  merkleRoot : String

/-- The status of a period without failures. -/
def compliantStatus : String := "COMPLIANT — All verifications passed"

section Pack

-- how a share is written: `f"{a / b * 100:.1f}%"`
variable (percent : ℕ → ℕ → String)

/-- `_compute_stats`. -/
def computeStats (entries : List VerificationAuditEntry) : Stats :=
  let total := entries.length
  let valid := (entries.filter fun e => e.result = "valid").length
  let invalid := total - valid
  { total := total, valid := valid, invalid := invalid
    validRate := if 0 < total then percent valid total else "N/A"
    invalidRate := if 0 < total then percent invalid total else "N/A" }

/-- `_compliance_status`.  For the totals that come here, `invalid / total < 0.01` of
floats is that of rationals. -/
def complianceStatus (stats : Stats) : String :=
  if stats.total = 0 then "NO_DATA — No records in this period"
  else if stats.invalid = 0 then compliantStatus
  else if stats.invalid * 100 < stats.total then
    "COMPLIANT WITH EXCEPTIONS — " ++ toString stats.invalid ++ " failures (" ++ stats.invalidRate ++ ")"
  else "REVIEW REQUIRED — " ++ toString stats.invalid ++ " failures (" ++ stats.invalidRate ++ ")"

/-- `raw_metrics` of the attestation. -/
def rawMetrics (stats : Stats) (fromDate toDate : Option String) : RawMetrics :=
  ⟨stats.total, stats.valid, stats.invalid, stats.validRate, stats.invalidRate, fromDate, toDate⟩

/-- `_sr_11_7`. -/
def sr117 (stats : Stats) (tenantId merkleRoot : String) (fromDate toDate : Option String) : Framework :=
  ⟨"SR 11-7", complianceStatus stats, tenantId, fromDate, toDate, stats.total,
    some (rawMetrics stats fromDate toDate), merkleRoot⟩

/-- `_eu_ai_act`. -/
def euAiAct (stats : Stats) (tenantId merkleRoot : String) (fromDate toDate : Option String) : Framework :=
  ⟨"EU AI Act", complianceStatus stats, tenantId, fromDate, toDate, stats.total, none, merkleRoot⟩

/-- `_cfpb`. -/
def cfpb (stats : Stats) (tenantId merkleRoot : String) (fromDate toDate : Option String) : Framework :=
  ⟨"CFPB", complianceStatus stats, tenantId, fromDate, toDate, stats.total, some (rawMetrics stats fromDate toDate),
    merkleRoot⟩

/-- `build_compliance_pack`. -/
def buildCompliancePack (entries : List VerificationAuditEntry) (tenantId merkleRoot : String)
    (fromDate toDate : Option String) : List (String × Framework) :=
  let stats := computeStats percent entries
  [("SR_11_7", sr117 stats tenantId merkleRoot fromDate toDate),
   ("EU_AI_ACT", euAiAct stats tenantId merkleRoot fromDate toDate),
   ("CFPB", cfpb stats tenantId merkleRoot fromDate toDate)]

/-- `audit_compliance_endpoint`: the pack. -/
def auditCompliance (table : List AuditRow) (tenantId : String) (fromDate toDate : Option String) :
    Except PyErr (List (String × Framework)) := do
  let qr ← query table tenantId ⟨fromDate, toDate, none, none⟩ 10000 0
  let _ ← verifyChain table tenantId
  .ok (buildCompliancePack percent qr.entries tenantId (merkleRootFromEntries qr.entries) fromDate toDate)

end Pack

/-! ### What the pack covers -/

/-- The rows of a tenant in a period. -/
def periodRows (table : List AuditRow) (t : String) (fromDate toDate : Option String) : List AuditRow :=
  table.filter fun r => Filters.Matches ⟨fromDate, toDate, none, none⟩ t r

/-- The invalid ones. -/
def invalidRows (rows : List AuditRow) : List AuditRow := rows.filter fun r => r.result ≠ "valid"

/-- The evidence speaks of all rows of the period. -/
structure Covers (rows : List AuditRow) (fw : Framework) : Prop where
  total : fw.total = rows.length
  metrics : ∀ m ∈ fw.rawMetrics, m.total = rows.length ∧ m.invalid = (invalidRows rows).length
  compliant : fw.status = compliantStatus → invalidRows rows = []

section

variable {percent : ℕ → ℕ → String} {table : List AuditRow} {t : String} {fromDate toDate : Option String}

/-- The entries that the endpoint reads: the newest thousand. -/
theorem auditCompliance_eq : auditCompliance percent table t fromDate toDate =
    .ok (buildCompliancePack percent
      (((selectMatching table t ⟨fromDate, toDate, none, none⟩).take 1000).map fun r => r.toVerificationAuditEntry) t
      (merkleRootFromEntries
        (((selectMatching table t ⟨fromDate, toDate, none, none⟩).take 1000).map fun r => r.toVerificationAuditEntry))
      fromDate toDate) := by
  have hquery : ∃ q, query table t ⟨fromDate, toDate, none, none⟩ 10000 0 = .ok q ∧ q.entries =
      ((selectMatching table t ⟨fromDate, toDate, none, none⟩).take 1000).map fun r => r.toVerificationAuditEntry :=
    ⟨_, rfl, rfl⟩
  obtain ⟨q, hq, hentries⟩ := hquery
  obtain ⟨res, hres, -⟩ := verifyChain_valid_iff table t
  rw [auditCompliance, hq, ok_bind, hres, ok_bind, hentries]

theorem computeStats_invalid (rows : List AuditRow) :
    (computeStats percent (rows.map fun r => r.toVerificationAuditEntry)).invalid = (invalidRows rows).length := by
  simp only [computeStats, invalidRows, List.filter_map, List.length_map]
  have hsplit := List.length_eq_length_filter_add (l := rows) fun r => decide (r.result = "valid")
  have hneg : (rows.filter fun r => !decide (r.result = "valid")) = rows.filter fun r => decide (r.result ≠ "valid") :=
    List.filter_congr fun r _ => by simp
  rw [hneg] at hsplit
  have hcomp : (rows.filter ((fun e : VerificationAuditEntry => decide (e.result = "valid")) ∘
      fun r => r.toVerificationAuditEntry)) = rows.filter fun r => decide (r.result = "valid") := rfl
  rw [hcomp]
  omega

theorem append_ne_of_take {a b c : String} (n : ℕ) (hlen : n ≤ a.toList.length)
    (h : a.toList.take n ≠ c.toList.take n) : a ++ b ≠ c := by
  rintro rfl
  rw [String.toList_append, List.take_append_of_le_length hlen] at h
  exact h rfl

/-- A status that says compliant. -/
theorem complianceStatus_eq {stats : Stats} (h : complianceStatus stats = compliantStatus) : stats.invalid = 0 := by
  by_contra hinvalid
  rw [complianceStatus, if_neg hinvalid] at h
  split_ifs at h
  · exact absurd h (by decide)
  · rw [String.append_assoc, String.append_assoc, String.append_assoc] at h
    exact append_ne_of_take 11 (by decide) (by decide) h
  · rw [String.append_assoc, String.append_assoc, String.append_assoc] at h
    exact append_ne_of_take 1 (by decide) (by decide) h

/-- The evidence from all rows of a period covers it. -/
theorem covers_of_all {rows period : List AuditRow} (hperm : rows.Perm period) {merkleRoot : String}
    {fw : String × Framework} (hfw : fw ∈ buildCompliancePack percent (rows.map fun r => r.toVerificationAuditEntry) t
      merkleRoot fromDate toDate) : Covers period fw.2 := by
  have htotal : (computeStats percent (rows.map fun r => r.toVerificationAuditEntry)).total = period.length := by
    simp only [computeStats, List.length_map]
    exact hperm.length_eq
  have hinvalid : (computeStats percent (rows.map fun r => r.toVerificationAuditEntry)).invalid =
      (invalidRows period).length := by
    rw [computeStats_invalid]
    exact (hperm.filter _).length_eq
  have hcompliant : complianceStatus (computeStats percent (rows.map fun r => r.toVerificationAuditEntry)) =
      compliantStatus → invalidRows period = [] := by
    intro h
    rw [← List.length_eq_zero_iff, ← hinvalid]
    exact complianceStatus_eq h
  simp only [buildCompliancePack, List.mem_cons, List.not_mem_nil, or_false] at hfw
  rcases hfw with rfl | rfl | rfl
  · exact ⟨htotal, fun m hm => by obtain rfl := Option.some.inj hm; exact ⟨htotal, hinvalid⟩, hcompliant⟩
  · exact ⟨htotal, nofun, hcompliant⟩
  · exact ⟨htotal, fun m hm => by obtain rfl := Option.some.inj hm; exact ⟨htotal, hinvalid⟩, hcompliant⟩

end

/-- **When the pack covers the period**: exactly if it has at most a thousand rows. -/
theorem covers_iff (percent : ℕ → ℕ → String) (table : List AuditRow) (t : String) (fromDate toDate : Option String) :
    (∃ pack, auditCompliance percent table t fromDate toDate = .ok pack ∧
      ∀ fw ∈ pack, Covers (periodRows table t fromDate toDate) fw.2) ↔
    ((periodRows table t fromDate toDate).length : ℤ) ≤ queryMaxLimit := by
  have hperm : (selectMatching table t ⟨fromDate, toDate, none, none⟩).Perm (periodRows table t fromDate toDate) :=
    selectMatching_perm
  rw [auditCompliance_eq]
  constructor
  · rintro ⟨pack, hpack, hcovers⟩
    obtain rfl := Except.ok.inj hpack
    have htotal := (hcovers _ (List.mem_cons_of_mem _ List.mem_cons_self)).total
    simp only [euAiAct, computeStats, List.length_map, List.length_take] at htotal
    rw [hperm.length_eq] at htotal
    simp only [queryMaxLimit]
    omega
  · intro hfew
    simp only [queryMaxLimit] at hfew
    have hall : (selectMatching table t ⟨fromDate, toDate, none, none⟩).take 1000 =
        selectMatching table t ⟨fromDate, toDate, none, none⟩ :=
      List.take_of_length_le (by rw [hperm.length_eq]; omega)
    rw [hall]
    exact ⟨_, rfl, fun fw hfw => covers_of_all hperm hfw⟩

/-! ### A failure behind a thousand successes -/

/-- A verification that succeeds a month later. -/
def laterEvent : Event where
  tenantId := "acme"
  traceId := "t-2"
  instanceId := some (.ofString "loan")
  sequenceId := some 1
  proofId := none
  verifiedAt := "2026-02-01T00:00:00Z"
  valid := true
  failureCode := none
  failureMsg := none
  keyId := some "key-001"
  governanceJson := none
  recordedAt := "2026-02-01T00:00:00Z"

/-- The failure of the sample, then a thousand successes. -/
def maskedLog : List AuditRow := recordAll [] (sampleEvent :: List.replicate 1000 laterEvent)

theorem laterEvent_recordable : laterEvent.Recordable where
  instanceId s h := by
    obtain rfl := Option.some.inj h
    rw [PyStr.toString?_ofString]
    rfl
  proofId _ h := by cases h
  sequenceId n h := by
    obtain rfl := Option.some.inj h
    decide

/-- What a row takes from its event. -/
def RowOf (e : Event) (r : AuditRow) : Prop :=
  r.tenantId = e.tenantId ∧ (r.result = if e.valid then "valid" else "invalid") ∧ r.verifiedAt = e.verifiedAt

theorem recordEvent_rowOf {table table' : List AuditRow} (h : LogInv table) {e : Event} {entry : VerificationAuditEntry}
    (hr : recordEvent table e = .ok (entry, table')) : ∃ row, table' = table ++ [row] ∧ RowOf e row := by
  obtain ⟨-, row, htab, hentry, ht, hres⟩ := recordEvent_ok h hr
  refine ⟨row, htab, ht, hres, ?_⟩
  rw [recordEvent, getLatestChainHash_eq (h.intact _)] at hr
  simp only [bind_eq_ok_iff, Event.entry_ok_iff] at hr
  obtain ⟨_, ⟨c, hc, rfl⟩, _, -, hpair⟩ := hr
  obtain ⟨rfl, -⟩ := Prod.mk.inj (Except.ok.inj hpair)
  simp only [Event.content, bind_eq_ok_iff] at hc
  obtain ⟨i, -, p, -, hc⟩ := hc
  obtain rfl := Except.ok.inj hc
  exact congrArg (fun e => e.verifiedAt) hentry

/-- A log of events that can be written has one row for each. -/
theorem recordAll_rows {es : List Event} (hes : ∀ e ∈ es, e.Recordable) :
    List.Forall₂ RowOf es (recordAll [] es) := by
  induction es using List.reverseRecOn with
  | nil => exact .nil
  | append_singleton es e ih =>
    have hinv : LogInv (recordAll [] es) := LogInv.recordAll .nil
    obtain ⟨⟨entry, table'⟩, hr⟩ := (recordEvent_ok_iff hinv).2 (hes e (by simp))
    obtain ⟨row, htab, hrow⟩ := recordEvent_rowOf hinv hr
    have hlast : recordAll [] (es ++ [e]) = recordAll [] es ++ [row] := by
      rw [recordAll, List.foldl_append, List.foldl_cons, List.foldl_nil]
      rw [recordAll] at hr
      rw [hr]
      exact htab
    rw [hlast]
    exact List.rel_append (ih fun e he => hes e (by simp [he])) (.cons hrow .nil)

/-- The rows of the log: one failure, and successes of a later time. -/
theorem maskedLog_rows : ∃ first rest, maskedLog = first :: rest ∧ rest.length = 1000 ∧ RowOf sampleEvent first ∧
    ∀ r ∈ rest, RowOf laterEvent r := by
  have hes : ∀ e ∈ sampleEvent :: List.replicate 1000 laterEvent, e.Recordable := by
    refine List.forall_mem_cons.2 ⟨sampleEvent_recordable, fun e he => ?_⟩
    rw [List.eq_of_mem_replicate he]
    exact laterEvent_recordable
  obtain ⟨first, rest, hfirst, hrest, hlog⟩ := List.forall₂_cons_left_iff.1 (recordAll_rows hes)
  refine ⟨first, rest, hlog, by rw [← hrest.length_eq, List.length_replicate], hfirst, fun r hr => ?_⟩
  obtain ⟨i, hi, rfl⟩ := List.getElem_of_mem hr
  have hi' : i < (List.replicate 1000 laterEvent).length := by rwa [hrest.length_eq]
  have hrow := hrest.get hi' hi
  rwa [List.get_eq_getElem, List.getElem_replicate] at hrow

/-- Newest first, an earlier row comes last. -/
theorem take_of_earliest {rows rest : List AuditRow} {first : AuditRow} (hperm : rows.Perm (first :: rest))
    (hsorted : rows.Pairwise NewestFirst) (hlater : ∀ r ∈ rest, first.verifiedAt < r.verifiedAt) :
    (rows.take rest.length).Perm rest := by
  obtain ⟨a, b, rfl⟩ := List.append_of_mem (hperm.mem_iff.2 List.mem_cons_self)
  have hab : (a ++ b).Perm rest := (List.perm_middle.symm.trans hperm).cons_inv
  obtain rfl : b = [] := by
    refine List.eq_nil_iff_forall_not_mem.2 fun r hr => ?_
    have hlt := hlater r (hab.subset (List.mem_append_right _ hr))
    have hafter := List.rel_of_pairwise_cons (List.pairwise_append.1 hsorted).2.1 hr
    rcases hafter with h | ⟨h, -⟩
    · exact lt_asymm h hlt
    · exact hlt.ne h
  rw [List.append_nil] at hab
  rw [← hab.length_eq, List.take_left' rfl]
  exact hab

/-- **The pack says that all verifications passed, of a period with a failure.** -/
theorem compliance_misses : (∃ r ∈ periodRows maskedLog "acme" none none, r.result = "invalid") ∧
    ∃ pack, auditCompliance (fun _ _ => "100.0%") maskedLog "acme" none none = .ok pack ∧
      ∀ fw ∈ pack, fw.2.status = compliantStatus ∧ fw.2.total = 1000 ∧ ¬ Covers (periodRows maskedLog "acme" none none) fw.2 := by
  obtain ⟨first, rest, hlog, hlen, ⟨htenant, hresult, hverified⟩, hrest⟩ := maskedLog_rows
  have hall : (maskedLog.filter fun r => Filters.none.Matches "acme" r) = maskedLog := by
    rw [hlog]
    exact filter_none (List.forall_mem_cons.2 ⟨htenant, fun r hr => (hrest r hr).1⟩)
  have hperiod : periodRows maskedLog "acme" none none = first :: rest := hall.trans hlog
  have hperm : (selectMatching maskedLog "acme" .none).Perm (first :: rest) :=
    selectMatching_perm.trans (.of_eq (hall.trans hlog))
  have hlater : ∀ r ∈ rest, first.verifiedAt < r.verifiedAt := by
    intro r hr
    rw [hverified, (hrest r hr).2.2]
    decide +kernel
  have htake := take_of_earliest hperm selectMatching_sorted hlater
  rw [hlen] at htake
  have hstats : ∀ rows : List AuditRow, rows.Perm rest →
      (computeStats (fun _ _ => "100.0%") (rows.map fun r => r.toVerificationAuditEntry)).total = 1000 ∧
      (computeStats (fun _ _ => "100.0%") (rows.map fun r => r.toVerificationAuditEntry)).invalid = 0 := by
    intro rows hrows
    constructor
    · simp only [computeStats, List.length_map]
      rw [hrows.length_eq, hlen]
    · rw [computeStats_invalid, List.length_eq_zero_iff, invalidRows, List.filter_eq_nil_iff]
      intro r hr
      have hvalid : r.result = "valid" := (hrest r (hrows.subset hr)).2.1
      simp [hvalid]
  obtain ⟨htotal, hinvalid⟩ := hstats _ htake
  have hstatus : complianceStatus (computeStats (fun _ _ => "100.0%")
      (((selectMatching maskedLog "acme" .none).take 1000).map fun r => r.toVerificationAuditEntry)) = compliantStatus := by
    rw [complianceStatus, htotal, hinvalid, if_neg (by decide), if_pos rfl]
  have hnot : ∀ fw : Framework, fw.total = 1000 → ¬ Covers (first :: rest) fw := by
    intro fw hfw hcovers
    have := hcovers.total
    rw [hfw, List.length_cons, hlen] at this
    exact absurd this (by decide)
  have hnone : Filters.none = ⟨none, none, none, none⟩ := rfl
  rw [hnone] at hstatus htotal
  rw [hperiod]
  refine ⟨⟨first, List.mem_cons_self, hresult⟩, _, auditCompliance_eq, ?_⟩
  generalize (((selectMatching maskedLog "acme" ⟨none, none, none, none⟩).take 1000).map
    fun r => r.toVerificationAuditEntry) = entries at hstatus htotal
  intro fw hfw
  simp only [buildCompliancePack, List.mem_cons, List.not_mem_nil, or_false] at hfw
  rcases hfw with rfl | rfl | rfl
  · exact ⟨hstatus, htotal, hnot _ htotal⟩
  · exact ⟨hstatus, htotal, hnot _ htotal⟩
  · exact ⟨hstatus, htotal, hnot _ htotal⟩

end Audit
end ProvableAi
