/-
# The state of the audit log at a block

`verify_chain_at_block` reads the rows of a tenant up to a sequence number, in the
order of these numbers, and walks them the way `verify_chain` does; it
answers with the chain hash of the last one.  On a log that `record` has written
the numbers follow the ids, so these rows are the log as it was after that many
calls for the tenant (`blockRows_eq`), and the chain hash is the one that
`get_latest_chain_hash` had then.
-/

import ProvableAi.Audit.Endpoint
import ProvableAi.Lib.Lockstep
import Mathlib.Data.List.TakeDrop

namespace ProvableAi
namespace Audit

open Lockstep

/-! ### `verify_chain_at_block` -/

/-- What `verify_chain_at_block` returns. -/
structure BlockResult where
  valid : Bool
  sequenceNum : ℤ
  chainHash : Option String
  totalRows : ℕ
  brokenAtSequence : Option ℤ

/-- `SELECT * … WHERE tenant_id=? AND sequence_num<=? ORDER BY sequence_num ASC`. -/
def blockRows (table : List AuditRow) (tenantId : String) (sequenceNum : ℤ) : List AuditRow :=
  (table.filter fun r => r.tenantId = tenantId ∧ r.sequenceNum ≤ sequenceNum).insertionSort
    fun r s => r.sequenceNum ≤ s.sequenceNum

/-- The loop of `verify_chain_at_block`; `total` is the number of rows. -/
def verifyBlockRows (sequenceNum : ℤ) (total : ℕ) : String → List AuditRow → Except PyErr BlockResult
  | prevChainHash, [] => .ok ⟨true, sequenceNum, some prevChainHash, total, none⟩
  | prevChainHash, row :: rest => do
    let expectedRh := computeRowHash row.toAuditContent
    let expectedCh ← computeChainHash prevChainHash expectedRh
    if row.rowHash ≠ expectedRh ∨ row.chainHash ≠ expectedCh then
      .ok ⟨false, sequenceNum, none, total, some row.sequenceNum⟩
    else verifyBlockRows sequenceNum total row.chainHash rest

/-- `verify_chain_at_block`; the number is taken to fit 64 bits. -/
def verifyChainAtBlock (table : List AuditRow) (tenantId : String) (sequenceNum : ℤ) : Except PyErr BlockResult :=
  let rows := blockRows table tenantId sequenceNum
  if rows = [] then .ok ⟨true, sequenceNum, some genesisHash, 0, none⟩
  else verifyBlockRows sequenceNum rows.length genesisHash rows

theorem verifyBlockRows_of_intact {k : ℤ} {total : ℕ} {rows : List AuditRow} : ∀ {prev : Bytes}, Intact prev rows →
    verifyBlockRows k total (toHex prev) rows =
      .ok ⟨true, k, some ((rows.getLast?.map fun r => r.chainHash).getD (toHex prev)), total, none⟩ := by
  induction rows with
  | nil => exact fun _ => rfl
  | cons r rows ih =>
    intro prev h
    obtain ⟨hr, hc, hrest⟩ := h
    rw [verifyBlockRows, computeChainHash_hex, ok_bind, if_neg (by simp [hr, hc]), hc, ih hrest]
    cases rows with
    | nil => simp [hc]
    | cons s rows => simp [List.getLast?_cons]

/-- **Rows that are intact.** -/
theorem verifyChainAtBlock_of_intact {table : List AuditRow} {t : String} {k : ℤ}
    (h : Intact genesisDigest (blockRows table t k)) : verifyChainAtBlock table t k =
      .ok ⟨true, k, some (((blockRows table t k).getLast?.map fun r => r.chainHash).getD genesisHash),
        (blockRows table t k).length, none⟩ := by
  rw [verifyChainAtBlock]
  by_cases hrows : blockRows table t k = []
  · rw [if_pos hrows, hrows]
    rfl
  · simp only [if_neg hrows]
    rw [genesisHash_eq]
    exact verifyBlockRows_of_intact h

/-- The first rows of a tenant are those with the first numbers. -/
theorem blockRows_eq {table : List AuditRow} (h : LogInv table) (t : String) (k : ℕ) :
    blockRows table t k = (tenantRows table t).take k := by
  have hnum := h.numbered t
  have hfilter : (table.filter fun r => r.tenantId = t ∧ r.sequenceNum ≤ (k : ℤ)) =
      (tenantRows table t).filter fun r => r.sequenceNum ≤ (k : ℤ) := by
    rw [tenantRows_eq_filter h.ids, List.filter_filter]
    refine List.filter_congr fun r _ => ?_
    simp [Bool.and_comm]
  rw [blockRows, hfilter]
  obtain ⟨rows, hrows⟩ : ∃ rows, rows = tenantRows table t := ⟨_, rfl⟩
  rw [← hrows] at hnum ⊢
  clear hrows hfilter
  -- the numbers count from one
  have htake : (rows.filter fun r => r.sequenceNum ≤ (k : ℤ)) = rows.take k := by
    induction rows using List.reverseRecOn with
    | nil => simp
    | append_singleton rows r ih =>
      rw [List.map_append, List.length_append, List.length_singleton, List.range_succ, List.map_append] at hnum
      obtain ⟨hinit, hlast⟩ := List.append_inj' hnum rfl
      have hr : r.sequenceNum = rows.length + 1 := by simpa using hlast
      rw [List.filter_append, ih hinit]
      by_cases hk : rows.length + 1 ≤ k
      · have hpos : r.sequenceNum ≤ k := by omega
        rw [List.filter_cons_of_pos (by simpa using hpos), List.take_of_length_le (by omega),
          List.take_of_length_le (by simpa using hk)]
        rfl
      · have hneg : ¬ r.sequenceNum ≤ k := by omega
        rw [List.filter_cons_of_neg (by simpa using hneg), List.filter_nil,
          List.append_nil, List.take_append_of_le_length (by omega)]
  rw [htake]
  refine List.Pairwise.insertionSort_eq (r := fun r s : AuditRow => r.sequenceNum ≤ s.sequenceNum) ?_
  have hsorted : (rows.map fun r => r.sequenceNum).Pairwise (· ≤ ·) := by
    rw [hnum, List.pairwise_map]
    exact List.pairwise_lt_range.imp fun hlt => by omega
  exact (List.pairwise_map.1 hsorted).sublist (List.take_sublist k rows)

/-! ### Runs of `record` -/

/-- A call of `record`, with the time it reads. -/
structure RecordCall where
  tenantId : String
  traceId : String
  proofDict : Body
  verifyResult : VerifyOutput
  now : String

/-- What a call answers, and the log after it. -/
def recordStep (table : List AuditRow) (c : RecordCall) : Except PyErr VerificationAuditEntry × List AuditRow :=
  match record table c.tenantId c.traceId c.proofDict c.verifyResult c.now with
  | .ok (entry, table) => (.ok entry, table)
  | .error e => (.error e, table)

/-- The calls for a tenant that returned. -/
def recorded (t : String) (calls : List RecordCall) : ℕ :=
  ((outputs recordStep (fun c => c.tenantId = t) [] calls).filter fun x => x.2.isOk).length

/-- A history that ends right after the `k`-th call for a tenant that returned. -/
inductive AfterRecord (t : String) : ℕ → List RecordCall → Prop
  | start : AfterRecord t 0 []
  | call (past : List RecordCall) (c : RecordCall) (entry : VerificationAuditEntry) (tenant : c.tenantId = t)
    (returned : (recordStep (final recordStep [] past) c).1 = .ok entry) :
    AfterRecord t (recorded t past + 1) (past ++ [c])

theorem LogInv.recordStep {table : List AuditRow} (h : LogInv table) (c : RecordCall) :
    LogInv (Audit.recordStep table c).2 := by
  rw [Audit.recordStep]
  cases hr : record table c.tenantId c.traceId c.proofDict c.verifyResult c.now with
  | error e => exact h
  | ok r => exact (record_ok h hr).1

theorem LogInv.recordRun (calls : List RecordCall) : LogInv (final Audit.recordStep [] calls) := by
  induction calls using List.reverseRecOn with
  | nil => exact .nil
  | append_singleton calls c ih =>
    rw [final_concat]
    exact ih.recordStep c

/-- **One call**: the rows of a tenant stay, and get one more if the call is for it and returns. -/
theorem tenantRows_recordStep {table : List AuditRow} (h : LogInv table) (c : RecordCall) (t : String) :
    tenantRows table t <+: tenantRows (recordStep table c).2 t ∧
      (tenantRows (recordStep table c).2 t).length = (tenantRows table t).length +
        if c.tenantId = t ∧ (recordStep table c).1.isOk = true then 1 else 0 := by
  rw [recordStep]
  cases hr : record table c.tenantId c.traceId c.proofDict c.verifyResult c.now with
  | error e => exact ⟨List.prefix_rfl, by simp [Except.isOk, Except.toBool]⟩
  | ok r =>
    obtain ⟨entry, table'⟩ := r
    obtain ⟨hinv, row, rfl, ht, -⟩ := record_ok h hr
    have hid : ∀ s ∈ table, s.id < row.id := fun s hs =>
      (List.pairwise_append.1 hinv.ids).2.2 s hs row (List.mem_singleton.2 rfl)
    simp only
    rw [tenantRows_concat h.ids hid, ht]
    by_cases hc : c.tenantId = t
    · rw [if_pos hc, if_pos ⟨hc, rfl⟩, List.length_append]
      exact ⟨List.prefix_append _ _, rfl⟩
    · rw [if_neg hc, if_neg fun h => hc h.1]
      exact ⟨List.prefix_rfl, rfl⟩

theorem recorded_concat (t : String) (calls : List RecordCall) (c : RecordCall) :
    recorded t (calls ++ [c]) = recorded t calls +
      if c.tenantId = t ∧ (recordStep (final recordStep [] calls) c).1.isOk = true then 1 else 0 := by
  have happ : ∀ (is : List RecordCall) (s : List AuditRow), outputs recordStep (fun c => c.tenantId = t) s (is ++ [c]) =
      outputs recordStep (fun c => c.tenantId = t) s is ++
        if c.tenantId = t then [(c, (recordStep (final recordStep s is) c).1)] else [] := by
    intro is
    induction is with
    | nil => intro s; simp [outputs, final]
    | cons i is ih =>
      intro s
      have hfinal : final recordStep s (i :: is) = final recordStep (recordStep s i).2 is := rfl
      rw [List.cons_append, outputs, outputs, ih, hfinal]
      by_cases hi : i.tenantId = t <;> simp [hi]
  rw [recorded, recorded, happ, List.filter_append, List.length_append]
  by_cases hc : c.tenantId = t
  · rw [if_pos hc]
    by_cases hok : (recordStep (final recordStep [] calls) c).1.isOk = true
    · rw [List.filter_cons_of_pos (by simpa using hok), if_pos ⟨hc, hok⟩]
      rfl
    · rw [List.filter_cons_of_neg (by simpa using hok), if_neg fun h => hok h.2]
      rfl
  · rw [if_neg hc, if_neg fun h => hc h.1]
    rfl

theorem recorded_eq (t : String) (calls : List RecordCall) :
    recorded t calls = (tenantRows (final recordStep [] calls) t).length := by
  induction calls using List.reverseRecOn with
  | nil => rfl
  | append_singleton calls c ih =>
    rw [recorded_concat, ih, final_concat, (tenantRows_recordStep (LogInv.recordRun calls) c t).2]

theorem tenantRows_run_isPrefix (t : String) (past future : List RecordCall) :
    tenantRows (final recordStep [] past) t <+: tenantRows (final recordStep [] (past ++ future)) t := by
  induction future using List.reverseRecOn with
  | nil => simp
  | append_singleton future c ih =>
    rw [← List.append_assoc, final_concat]
    exact ih.trans (tenantRows_recordStep (LogInv.recordRun _) c t).1

/-- There is a moment right after every call that returned. -/
theorem exists_afterRecord (t : String) (calls : List RecordCall) : ∀ k ≤ recorded t calls,
    ∃ past, past <+: calls ∧ recorded t past = k ∧ AfterRecord t k past := by
  induction calls using List.reverseRecOn with
  | nil =>
    intro k hk
    obtain rfl := Nat.le_zero.1 hk
    exact ⟨[], List.prefix_rfl, rfl, .start⟩
  | append_singleton calls c ih =>
    intro k hk
    by_cases hle : k ≤ recorded t calls
    · obtain ⟨past, hp, hpast⟩ := ih k hle
      exact ⟨past, hp.trans (List.prefix_append _ _), hpast⟩
    · rw [recorded_concat] at hk
      split_ifs at hk with hc
      · obtain rfl : k = recorded t calls + 1 := by omega
        obtain ⟨ht, hok⟩ := hc
        refine ⟨calls ++ [c], List.prefix_rfl, by rw [recorded_concat, if_pos ⟨ht, hok⟩], ?_⟩
        cases hres : (recordStep (final recordStep [] calls) c).1 with
        | error e => rw [hres] at hok; cases hok
        | ok entry => exact .call calls c entry ht hres
      · omega

/-- **The audit log at a block.**  At the end of every run of `record` and for every number of
calls for the tenant that returned, `verify_chain_at_block` finds as many rows valid and
answers with the chain hash that the tenant had right after that call. -/
theorem verifyChainAtBlock_history (calls : List RecordCall) (t : String) (k : ℕ) (hk : k ≤ recorded t calls) :
    (∃ past, past <+: calls ∧ recorded t past = k ∧ AfterRecord t k past) ∧
    (∀ past, past <+: calls → recorded t past = k →
      verifyChainAtBlock (final recordStep [] calls) t k =
        .ok ⟨true, k, some (getLatestChainHash (final recordStep [] past) t), k, none⟩) ∧
    getLatestChainHash (final recordStep [] []) t = genesisHash := by
  refine ⟨exists_afterRecord t calls k hk, ?_, rfl⟩
  rintro past ⟨future, rfl⟩ rfl
  have hinv := LogInv.recordRun (past ++ future)
  have hrows : blockRows (final recordStep [] (past ++ future)) t (recorded t past) =
      tenantRows (final recordStep [] past) t := by
    rw [blockRows_eq hinv, recorded_eq]
    exact (List.prefix_iff_eq_take.1 (tenantRows_run_isPrefix t past future)).symm
  have hintact : Intact genesisDigest (blockRows (final recordStep [] (past ++ future)) t (recorded t past)) := by
    rw [hrows]
    exact (LogInv.recordRun past).intact t
  rw [verifyChainAtBlock_of_intact hintact, hrows, recorded_eq]
  rfl

/-- A verification of `null` for `acme`. -/
def nullCall : RecordCall where
  tenantId := "acme"
  traceId := "t-1"
  proofDict := .null
  verifyResult := verifyProofFull (schemaFailure "2026-01-01T00:00:00Z" .null)
  now := "2026-01-01T00:00:00Z"

theorem nullCall_auditable : Body.null.Auditable where
  instanceId _ h := by cases h
  proofId _ h := by cases h
  finite _ h := by cases h
  sequenceId _ _ h := by cases h

/-- One call on an empty log. -/
theorem recorded_single (c : RecordCall) (h : c.proofDict.Auditable) : recorded c.tenantId [c] = 1 := by
  have hreturns : (recordStep [] c).1.isOk = true := by
    obtain ⟨r, hr⟩ : ∃ r, record [] c.tenantId c.traceId c.proofDict c.verifyResult c.now = .ok r :=
      (record_returns_iff .nil).2 h
    rw [recordStep, hr]
    rfl
  have hnone : recorded c.tenantId [] = 0 := rfl
  have hnil : final recordStep [] [] = [] := rfl
  rw [← List.nil_append [c], recorded_concat, hnil, if_pos ⟨rfl, hreturns⟩, hnone]

theorem recorded_nullCall : recorded "acme" [nullCall] = 1 := recorded_single nullCall nullCall_auditable

/-- The log of one call, at its first block. -/
theorem verifyChainAtBlock_history_null : verifyChainAtBlock (final recordStep [] [nullCall]) "acme" (1 : ℕ) =
    .ok ⟨true, (1 : ℕ), some (getLatestChainHash (final recordStep [] [nullCall]) "acme"), 1, none⟩ :=
  (verifyChainAtBlock_history [nullCall] "acme" 1 recorded_nullCall.ge).2.1 _ List.prefix_rfl recorded_nullCall

end Audit
end ProvableAi
