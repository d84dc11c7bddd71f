/-
# Queries of the audit log

`VerificationAuditLog.query`: the rows of a tenant that pass the filters, newest
first, a page at a time.  The limit is cut at `QUERY_MAX_LIMIT` from above only,
and `LIMIT` of SQLite reads a negative number as no limit at all; a number that
does not fit 64 bits is not bound.

`bounded_iff` says for which limits and offsets a page is bounded the way the docstring has it,
`query_pages` that the pages of a proper limit are a partition of what matches.
-/

import ProvableAi.Audit.Leaf
import Mathlib.Data.List.TakeDrop

namespace ProvableAi
namespace Audit

/-! ### `query` -/

/-- `QUERY_MAX_LIMIT`. -/
def queryMaxLimit : ℤ := 1000

/-- The optional filters of a query. -/
structure Filters where
  fromDate : Option String
  toDate : Option String
  result : Option String
  instanceId : Option String

/-- No filter. -/
def Filters.none : Filters := ⟨.none, .none, .none, .none⟩

/-- A text that is given: `if text:`. -/
def given (text : Option String) : Option String := text.filter fun s => s ≠ ""

/-- The `WHERE` clause of a query. -/
def Filters.Matches (f : Filters) (tenantId : String) (r : AuditRow) : Prop :=
  r.tenantId = tenantId ∧ (∀ d ∈ given f.fromDate, d ≤ r.verifiedAt) ∧ (∀ d ∈ given f.toDate, r.verifiedAt ≤ d) ∧
    (∀ s ∈ f.result.filter fun s => s = "valid" ∨ s = "invalid", r.result = s) ∧
    ∀ i ∈ given f.instanceId, r.instanceId = some i

instance (f : Filters) (tenantId : String) (r : AuditRow) : Decidable (f.Matches tenantId r) :=
  inferInstanceAs (Decidable (_ ∧ _ ∧ _ ∧ _ ∧ _))

/-- `ORDER BY verified_at DESC, id DESC`. -/
def NewestFirst (r s : AuditRow) : Prop := s.verifiedAt < r.verifiedAt ∨ r.verifiedAt = s.verifiedAt ∧ s.id ≤ r.id

instance : DecidableRel NewestFirst := fun _ _ => inferInstanceAs (Decidable (_ ∨ _ ∧ _))

/-- `SELECT * … WHERE … ORDER BY verified_at DESC, id DESC`. -/
def selectMatching (table : List AuditRow) (tenantId : String) (f : Filters) : List AuditRow :=
  (table.filter fun r => f.Matches tenantId r).insertionSort NewestFirst

/-- `LIMIT ? OFFSET ?`: a negative limit is none, a negative offset is zero. -/
def limitOffset (limit offset : ℤ) (rows : List AuditRow) : List AuditRow :=
  let rest := rows.drop offset.toNat
  if limit < 0 then rest else rest.take limit.toNat

/-- `AuditQueryResult`. -/
structure AuditQueryResult where
  entries : List VerificationAuditEntry
  total : ℕ
  tenantId : String
  fromDate : Option String
  toDate : Option String

/-- `VerificationAuditLog.query`. -/
def query (table : List AuditRow) (tenantId : String) (f : Filters) (limit offset : ℤ) : Except PyErr AuditQueryResult :=
  let limit := min limit queryMaxLimit
  let total := (table.filter fun r => f.Matches tenantId r).length
  if fitsInteger limit && fitsInteger offset then
    .ok
      { entries := (limitOffset limit offset (selectMatching table tenantId f)).map fun r => r.toVerificationAuditEntry
        total := total, tenantId := tenantId, fromDate := f.fromDate, toDate := f.toDate }
  else .error .overflowError

/-! ### What matches -/

section

variable {table : List AuditRow} {t : String} {f : Filters}

theorem newestFirst_total (r s : AuditRow) : NewestFirst r s ∨ NewestFirst s r := by
  rcases lt_trichotomy r.verifiedAt s.verifiedAt with h | h | h
  · exact .inr (.inl h)
  · rcases le_total r.id s.id with hid | hid
    · exact .inr (.inr ⟨h.symm, hid⟩)
    · exact .inl (.inr ⟨h, hid⟩)
  · exact .inl (.inl h)

theorem newestFirst_trans {r s u : AuditRow} (h : NewestFirst r s) (h' : NewestFirst s u) : NewestFirst r u := by
  rcases h with h | ⟨h, hid⟩ <;> rcases h' with h' | ⟨h', hid'⟩
  · exact .inl (h'.trans h)
  · exact .inl (h' ▸ h)
  · exact .inl (h ▸ h')
  · exact .inr ⟨h.trans h', hid'.trans hid⟩

theorem selectMatching_perm : (selectMatching table t f).Perm (table.filter fun r => f.Matches t r) :=
  List.perm_insertionSort _ _

theorem selectMatching_sorted : (selectMatching table t f).Pairwise NewestFirst := by
  have : Std.Total NewestFirst := ⟨newestFirst_total⟩
  have : IsTrans AuditRow NewestFirst := ⟨fun _ _ _ => newestFirst_trans⟩
  exact List.pairwise_insertionSort _ _

theorem length_selectMatching : (selectMatching table t f).length = (table.filter fun r => f.Matches t r).length :=
  selectMatching_perm.length_eq

/-! ### The bound of a page -/

/-- A page as the docstring has it: at most `QUERY_MAX_LIMIT` entries, and the number of all that match. -/
def Bounded (table : List AuditRow) (t : String) (f : Filters) (limit offset : ℤ) : Prop :=
  ∃ q, query table t f limit offset = .ok q ∧ (q.entries.length : ℤ) ≤ queryMaxLimit ∧
    q.total = (table.filter fun r => f.Matches t r).length

/-- The numbers can be bound, and a limit below zero lets no more through than the cap. -/
structure Capped (table : List AuditRow) (t : String) (f : Filters) (limit offset : ℤ) : Prop where
  limit_ge : -(2 ^ 63) ≤ limit
  offset_fits : fitsInteger offset = true
  few : limit < 0 → ((table.filter fun r => f.Matches t r).length : ℤ) - max offset 0 ≤ queryMaxLimit

theorem fitsInteger_min {limit : ℤ} : fitsInteger (min limit queryMaxLimit) = true ↔ -(2 ^ 63) ≤ limit := by
  rw [fitsInteger, queryMaxLimit, Bool.and_eq_true, decide_eq_true_iff, decide_eq_true_iff]
  omega

theorem length_limitOffset {limit offset : ℤ} (rows : List AuditRow) (h : limit ≤ queryMaxLimit) :
    ((limitOffset limit offset rows).length : ℤ) ≤ queryMaxLimit ↔
      (limit < 0 → (rows.length : ℤ) - max offset 0 ≤ queryMaxLimit) := by
  rw [limitOffset]
  simp only [queryMaxLimit] at h ⊢
  split_ifs with hneg
  · rw [List.length_drop]
    omega
  · refine iff_of_true ?_ fun hlt => absurd hlt hneg
    rw [List.length_take]
    omega

/-- **When a page is bounded.** -/
theorem bounded_iff {limit offset : ℤ} : Bounded table t f limit offset ↔ Capped table t f limit offset := by
  have hmin : min limit queryMaxLimit ≤ queryMaxLimit := min_le_right _ _
  have hneg : min limit queryMaxLimit < 0 ↔ limit < 0 := by
    simp only [queryMaxLimit]
    omega
  rw [Bounded, query]
  by_cases hfits : fitsInteger (min limit queryMaxLimit) = true ∧ fitsInteger offset = true
  · simp only [hfits.1, hfits.2, Bool.and_self, if_true, Except.ok.injEq]
    have hlen := @length_limitOffset _ offset (selectMatching table t f) hmin
    rw [length_selectMatching, hneg] at hlen
    constructor
    · rintro ⟨q, rfl, hq, -⟩
      rw [List.length_map] at hq
      exact ⟨fitsInteger_min.1 hfits.1, hfits.2, hlen.1 hq⟩
    · intro h
      refine ⟨_, rfl, ?_, rfl⟩
      rw [List.length_map]
      exact hlen.2 h.few
  · have hno : ¬ (fitsInteger (min limit queryMaxLimit) && fitsInteger offset) = true := by
      rwa [Bool.and_eq_true]
    simp only [if_neg hno]
    refine iff_of_false (by simp) fun h => hfits ⟨fitsInteger_min.2 h.limit_ge, h.offset_fits⟩

/-! ### The pages of a limit -/

/-- The first pages of a limit. -/
def pages (table : List AuditRow) (t : String) (f : Filters) (limit : ℤ) (n : ℕ) :
    Except PyErr (List AuditQueryResult) :=
  (List.range n).mapM fun i : ℕ => query table t f limit (i * limit)

/-- The offsets of the pages fit 64 bits. -/
def OffsetsFit (limit : ℤ) (n : ℕ) : Prop := ∀ i < n, fitsInteger (i * limit) = true

theorem query_page {limit : ℕ} (hone : 1 ≤ limit) (hmax : limit ≤ 1000) {i : ℕ}
    (hi : fitsInteger ((i : ℤ) * limit) = true) : ∃ q, query table t f limit (i * limit) = .ok q ∧
      q.entries = (((selectMatching table t f).drop (i * limit)).take limit).map fun r => r.toVerificationAuditEntry := by
  have hmin : min (limit : ℤ) queryMaxLimit = limit := by
    simp only [queryMaxLimit]
    omega
  have hfit : fitsInteger (limit : ℤ) = true := by
    simp only [fitsInteger, Bool.and_eq_true, decide_eq_true_eq]
    omega
  have hoffset : ((i : ℤ) * limit).toNat = i * limit := by
    rw [← Nat.cast_mul, Int.toNat_natCast]
  rw [query, hmin, hfit, hi]
  refine ⟨_, rfl, ?_⟩
  simp only [limitOffset]
  rw [if_neg (by omega), hoffset, Int.toNat_natCast]

theorem take_pages {α : Type} (xs : List α) (n limit : ℕ) :
    (List.range n).flatMap (fun i => (xs.drop (i * limit)).take limit) = xs.take (n * limit) := by
  induction n with
  | zero => simp
  | succ n ih => rw [List.range_succ, List.flatMap_append, ih, Nat.succ_mul, List.take_add, List.flatMap_singleton]

/-- **The pages of a limit follow each other** through the rows that match. -/
theorem pages_eq {limit : ℕ} (hone : 1 ≤ limit) (hmax : limit ≤ 1000) {n : ℕ} (hfit : OffsetsFit limit n) :
    ∃ qs, pages table t f limit n = .ok qs ∧ qs.flatMap (fun q => q.entries) =
      ((selectMatching table t f).take (n * limit)).map fun r => r.toVerificationAuditEntry := by
  -- one page at a time, from the first
  have hpages : ∀ is : List ℕ, (∀ i ∈ is, i < n) → ∃ qs,
      (is.mapM fun i : ℕ => query table t f limit (i * limit)) = .ok qs ∧ qs.flatMap (fun q => q.entries) =
        (is.flatMap fun i => ((selectMatching table t f).drop (i * limit)).take limit).map
          fun r => r.toVerificationAuditEntry := by
    intro is
    induction is with
    | nil => exact fun _ => ⟨[], rfl, rfl⟩
    | cons i is ih =>
      intro his
      obtain ⟨q, hq, hentries⟩ : ∃ q, query table t f limit (i * limit) = .ok q ∧ q.entries =
          (((selectMatching table t f).drop (i * limit)).take limit).map fun r => r.toVerificationAuditEntry :=
        query_page hone hmax (hfit i (his i List.mem_cons_self))
      obtain ⟨qs, hqs, hrest⟩ := ih fun j hj => his j (List.mem_cons_of_mem _ hj)
      refine ⟨q :: qs, ?_, ?_⟩
      · rw [List.mapM_cons, hq, hqs]
        rfl
      · rw [List.flatMap_cons, List.flatMap_cons, hentries, hrest, List.map_append]
  obtain ⟨qs, hqs, hall⟩ := hpages (List.range n) fun i hi => List.mem_range.1 hi
  exact ⟨qs, hqs, by rw [hall, take_pages]⟩

/-- Enough pages for all rows of a table have offsets that fit. -/
theorem exists_pages {limit : ℕ} (hone : 1 ≤ limit) {len : ℕ} (hlen : len < 2 ^ 63) :
    ∃ n, OffsetsFit limit n ∧ len ≤ n * limit := by
  refine ⟨(len + limit - 1) / limit, fun i hi => ?_, ?_⟩
  · have hlt : i * limit < len := by
      have h := (Nat.lt_div_iff_mul_lt (by omega)).1 hi
      have hcomm : limit * i = i * limit := Nat.mul_comm _ _
      omega
    have hcast : ((i : ℤ) * limit) = ((i * limit : ℕ) : ℤ) := by push_cast; rfl
    simp only [fitsInteger, hcast, Bool.and_eq_true, decide_eq_true_eq]
    omega
  · have h := Nat.lt_div_mul_add (a := len + limit - 1) (show 0 < limit by omega)
    omega

end

/-- **Pages of the audit log.**  For every table, tenant and filters: a page is bounded exactly if it is
capped, and for a limit from `1` to `QUERY_MAX_LIMIT` the pages follow each other through a list of the
matching rows, each as often as the table has it, newest first; as many pages as the rows need have offsets that fit. -/
theorem query_pages (table : List AuditRow) (t : String) (f : Filters) :
    (∀ limit offset, Bounded table t f limit offset ↔ Capped table t f limit offset) ∧
    ∃ rows : List AuditRow, rows.Perm (table.filter fun r => f.Matches t r) ∧ rows.Pairwise NewestFirst ∧
      ∀ limit : ℕ, 1 ≤ limit → (limit : ℤ) ≤ queryMaxLimit →
        (∀ n, OffsetsFit limit n → ∃ qs, pages table t f limit n = .ok qs ∧
          qs.flatMap (fun q => q.entries) = (rows.take (n * limit)).map fun r => r.toVerificationAuditEntry) ∧
        (table.length < 2 ^ 63 → ∃ n, OffsetsFit limit n ∧ rows.length ≤ n * limit) := by
  refine ⟨fun _ _ => bounded_iff, selectMatching table t f, selectMatching_perm, selectMatching_sorted, ?_⟩
  intro limit hone hmax
  refine ⟨fun n hfit => pages_eq hone (by simpa [queryMaxLimit] using hmax) hfit, fun hlen => ?_⟩
  refine exists_pages hone ?_
  rw [length_selectMatching]
  exact (List.length_filter_le _ _).trans_lt hlen

/-! ### A limit below zero -/

/-- A log of one event again and again. -/
theorem recordAll_replicate {e : Event} (he : e.Recordable) (n : ℕ) :
    (recordAll [] (List.replicate n e)).length = n ∧
      ∀ r ∈ recordAll [] (List.replicate n e), r.tenantId = e.tenantId := by
  induction n with
  | zero => exact ⟨rfl, fun r hr => by cases hr⟩
  | succ n ih =>
    have hinv : LogInv (recordAll [] (List.replicate n e)) := LogInv.recordAll .nil
    obtain ⟨⟨entry, table'⟩, hr⟩ := (recordEvent_ok_iff hinv).2 he
    obtain ⟨-, row, htab, -, ht, -⟩ := recordEvent_ok hinv hr
    have hsucc : recordAll [] (List.replicate (n + 1) e) = table' := by
      rw [List.replicate_succ', recordAll, List.foldl_append, List.foldl_cons, List.foldl_nil]
      rw [recordAll] at hr
      rw [hr]
    rw [hsucc, htab]
    refine ⟨by rw [List.length_append, ih.1, List.length_singleton], fun r hr => ?_⟩
    rcases List.mem_append.1 hr with hr | hr
    · exact ih.2 r hr
    · rw [List.mem_singleton.1 hr, ht]

theorem sampleEvent_recordable : sampleEvent.Recordable where
  instanceId _ h := by cases h
  proofId _ h := by cases h
  sequenceId _ h := by cases h

/-- A row of the tenant passes no filter at all. -/
theorem filter_none {table : List AuditRow} {t : String} (h : ∀ r ∈ table, r.tenantId = t) :
    (table.filter fun r => Filters.none.Matches t r) = table := by
  refine List.filter_eq_self.2 fun r hr => decide_eq_true ⟨h r hr, ?_, ?_, ?_, ?_⟩ <;> intro d hd <;> cases hd

/-- **With the limit `-1` a log of 1001 rows is one page.** -/
theorem query_unbounded : ¬ Bounded (recordAll [] (List.replicate 1001 sampleEvent)) "acme" .none (-1) 0 := by
  obtain ⟨hlen, htenant⟩ := recordAll_replicate sampleEvent_recordable 1001
  generalize recordAll [] (List.replicate 1001 sampleEvent) = table at hlen htenant
  have hall : (table.filter fun r => Filters.none.Matches "acme" r) = table := filter_none htenant
  intro h
  have hfew := (bounded_iff.1 h).few (by decide)
  rw [hall, hlen] at hfew
  exact absurd hfew (by decide)

end Audit
end ProvableAi
