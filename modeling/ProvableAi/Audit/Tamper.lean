/-
# What the audit log detects

A log that `record` has written is copied, one thing is altered in the copy, and
no stored hash is recomputed: rows are deleted, one column of one row is changed,
a row is put in with a chain hash that was already there (or none), or two rows
trade places.

`verify_chain` has nothing outside the table to compare with, reads neither
`prev_chain_hash` nor `id`, and starts from the genesis hash.  So it misses what
leaves a prefix of the tenant's rows, or the same rows: rows deleted from the end,
another tenant written into the last row, a new `prev_chain_hash`, a new id that
keeps the order.  `Visible` is everything else, and `tampering_detected_iff` says
that exactly this is detected.

The argument is `position_fixed`: in two intact lists a row with one chain hash
stands at one position, after the same contents.
-/

import ProvableAi.Audit.Log
import Mathlib.Data.List.Infix

namespace ProvableAi
namespace Audit

open HashChain

/-! ### Tampering -/

/-- A column and its new value. -/
inductive Change where
  | id (n : ℤ)
  | tenantId (s : String)
  | traceId (s : String)
  | instanceId (s : Option String)
  | sequenceId (n : Option ℤ)
  | sequenceNum (n : ℤ)
  | proofId (s : Option String)
  | verifiedAt (s : String)
  | result (s : String)
  | failureCode (s : Option String)
  | failureMsg (s : Option String)
  | keyId (s : Option String)
  | governanceJson (s : Option String)
  | recordedAt (s : String)
  | rowHash (s : String)
  | prevChainHash (s : String)
  | chainHash (s : String)

/-- The row with the new value. -/
def Change.apply (r : AuditRow) : Change → AuditRow
  | .id n => { r with id := n }
  | .tenantId s => { r with tenantId := s }
  | .traceId s => { r with traceId := s }
  | .instanceId s => { r with instanceId := s }
  | .sequenceId n => { r with sequenceId := n }
  | .sequenceNum n => { r with sequenceNum := n }
  | .proofId s => { r with proofId := s }
  | .verifiedAt s => { r with verifiedAt := s }
  | .result s => { r with result := s }
  | .failureCode s => { r with failureCode := s }
  | .failureMsg s => { r with failureMsg := s }
  | .keyId s => { r with keyId := s }
  | .governanceJson s => { r with governanceJson := s }
  | .recordedAt s => { r with recordedAt := s }
  | .rowHash s => { r with rowHash := s }
  | .prevChainHash s => { r with prevChainHash := s }
  | .chainHash s => { r with chainHash := s }

/-- An alteration of a log. -/
inductive Tampering where
  | delete (gone : AuditRow → Bool)
  | change (r : AuditRow) (c : Change)
  | insert (x : AuditRow)
  | exchange (r s : AuditRow)

namespace Tampering

/-- The altered copy. -/
def copy (log : List AuditRow) : Tampering → List AuditRow
  | .delete gone => log.filter fun r => !gone r
  | .change r c => log.map fun q => if q = r then c.apply r else q
  | .insert x => log ++ [x]
  | .exchange r s => log.map fun q =>
      if q = r then { r with id := s.id } else if q = s then { s with id := r.id } else q

/-- The alteration is one of the tenant's rows in the log, ids stay distinct, and
the chain hash of a new row is not computed for it. -/
def On (log : List AuditRow) (t : String) : Tampering → Prop
  | .delete gone => (∃ r ∈ log, gone r = true) ∧ ∀ r ∈ log, gone r = true → r.tenantId = t
  | .change r c => (r ∈ log ∧ r.tenantId = t) ∧ c.apply r ≠ r ∧ ∀ s ∈ log, s ≠ r → s.id ≠ (c.apply r).id
  | .insert x => x.tenantId = t ∧ (∀ r ∈ log, r.id ≠ x.id) ∧
      (x.chainHash = "" ∨ ∃ r ∈ log, x.chainHash = r.chainHash)
  | .exchange r s => (r ∈ log ∧ r.tenantId = t) ∧ (s ∈ log ∧ s.tenantId = t) ∧ r ≠ s

/-- The alteration shows: a row follows a deleted one, or one moved to another
tenant; a new id changes the order; any other change but that of
`prev_chain_hash`, any new row and any exchange. -/
def Visible (log : List AuditRow) (t : String) : Tampering → Prop
  | .delete gone => ∃ r ∈ tenantRows log t, ∃ s ∈ tenantRows log t,
      gone r = true ∧ gone s = false ∧ r.id < s.id
  | .change r (.id n) => ∃ s ∈ tenantRows log t, (s.id < r.id ∧ n < s.id) ∨ (r.id < s.id ∧ s.id < n)
  | .change r (.tenantId _) => ∃ s ∈ tenantRows log t, r.id < s.id
  | .change _ (.prevChainHash _) => False
  | _ => True

end Tampering

/-! ### Rows in intact lists -/

/-- Everything that is hashed along the rows of a log, of any tenant. -/
def logInputs (log : List AuditRow) : Set Bytes :=
  {b | ∃ t, b ∈ hashedInputs (contents (tenantRows log t))}

theorem contents_append (rows more : List AuditRow) :
    contents (rows ++ more) = contents rows ++ contents more := List.map_append

theorem hashedInputs_append_left (cs ds : List AuditContent) :
    hashedInputs cs ⊆ hashedInputs (cs ++ ds) := by
  rintro b (⟨c, hc, hb⟩ | ⟨p, hp, hb⟩)
  · exact .inl ⟨c, List.mem_append_left _ hc, hb⟩
  · exact .inr ⟨p, by rw [steps_append]; exact List.mem_append_left _ hp, hb⟩

/-- The chain hash of a row in an intact list. -/
theorem Intact.chainHash_eq {prev : Bytes} {before after : List AuditRow} {r : AuditRow}
    (h : Intact prev (before ++ r :: after)) :
    r.chainHash = toHex (linkDigest ((contents before).foldl linkDigest prev) r.toAuditContent) :=
  (intact_append.1 h).2.2.1

theorem mem_steps_of_split (before after : List AuditRow) (r : AuditRow) :
    ((contents before).foldl linkDigest genesisDigest, r.toAuditContent) ∈
      steps linkDigest genesisDigest (contents (before ++ r :: after)) := by
  rw [contents_append, steps_append]
  exact List.mem_append_right _ List.mem_cons_self

/-- **A chain hash fixes the position of its row**: what stands before it in one
intact list is what stands before it in any other. -/
theorem position_fixed {before after before' after' : List AuditRow} {r r' : AuditRow}
    (h : Intact genesisDigest (before ++ r :: after)) (h' : Intact genesisDigest (before' ++ r' :: after'))
    (hcf : Collisionless (hashedInputs (contents (before ++ r :: after)) ∪
      hashedInputs (contents (before' ++ r' :: after'))))
    (hc : r.chainHash = r'.chainHash) :
    contents before = contents before' ∧ r.toAuditContent = r'.toAuditContent := by
  rw [h.chainHash_eq, h'.chainHash_eq, toHex_inj] at hc
  have hpair := linkDigest_inj hcf (mem_steps_of_split before after r)
    (mem_steps_of_split before' after' r') hc
  obtain ⟨hfold, hcontent⟩ := Prod.mk.inj hpair
  refine ⟨contents_eq_of_foldl (hcf.mono ?_) hfold, hcontent⟩
  rw [contents_append, contents_append]
  exact Set.union_subset_union (hashedInputs_append_left _ _) (hashedInputs_append_left _ _)

/-- The same with lengths: the number of rows before it is the same. -/
theorem length_fixed {before after before' after' : List AuditRow} {r r' : AuditRow}
    (h : Intact genesisDigest (before ++ r :: after)) (h' : Intact genesisDigest (before' ++ r' :: after'))
    (hcf : Collisionless (hashedInputs (contents (before ++ r :: after)) ∪
      hashedInputs (contents (before' ++ r' :: after'))))
    (hc : r.chainHash = r'.chainHash) : before.length = before'.length := by
  have := congrArg List.length (position_fixed h h' hcf hc).1
  simpa [contents] using this

/-! ### The tenant's rows of the copy -/

/-- An id names one row. -/
theorem eq_of_id_eq {rows : List AuditRow} (h : rows.Pairwise fun r s => r.id < s.id) {r s : AuditRow}
    (hr : r ∈ rows) (hs : s ∈ rows) (hid : r.id = s.id) : r = s := by
  induction rows with
  | nil => simp at hr
  | cons q rows ih =>
    obtain ⟨hq, hrows⟩ := List.pairwise_cons.1 h
    rcases List.mem_cons.1 hr with rfl | hr' <;> rcases List.mem_cons.1 hs with rfl | hs'
    · rfl
    · exact absurd hid (ne_of_lt (hq s hs'))
    · exact absurd hid.symm (ne_of_lt (hq r hr'))
    · exact ih hrows hr' hs'

/-- The rows in the order of ids, from any listing of them. -/
theorem tenantRows_of_perm {table rows : List AuditRow} {t : String}
    (hperm : (table.filter fun r => r.tenantId = t).Perm rows)
    (hids : rows.Pairwise fun r s => r.id < s.id) : tenantRows table t = rows := by
  have hsort := (List.perm_insertionSort (fun r s : AuditRow => r.id ≤ s.id) _).trans hperm
  refine List.Perm.eq_of_pairwise (fun r s hr hs hrs hsr => ?_)
    (List.pairwise_insertionSort (fun r s : AuditRow => r.id ≤ s.id) _) (hids.imp le_of_lt) hsort
  exact eq_of_id_eq hids (hsort.mem_iff.1 hr) hs (le_antisymm hrs hsr)

section Copy

variable {log : List AuditRow} {t : String}

theorem mem_tenantRows {table : List AuditRow} {r : AuditRow} :
    r ∈ tenantRows table t ↔ r ∈ table ∧ r.tenantId = t := by
  rw [tenantRows, (List.perm_insertionSort _ _).mem_iff, List.mem_filter, decide_eq_true_iff]

theorem tenantRows_ids (h : LogInv log) : (tenantRows log t).Pairwise fun r s => r.id < s.id := by
  rw [tenantRows_eq_filter h.ids]
  exact h.ids.filter _

theorem tenantRows_delete (h : LogInv log) (gone : AuditRow → Bool) :
    tenantRows ((Tampering.delete gone).copy log) t = (tenantRows log t).filter fun r => !gone r := by
  rw [Tampering.copy, tenantRows_eq_filter (h.ids.filter _), tenantRows_eq_filter h.ids,
    List.filter_filter, List.filter_filter]
  simp only [Bool.and_comm]

/-- A row in its place among the tenant's rows. -/
theorem tenantRows_split (h : LogInv log) {r : AuditRow} (hr : r ∈ log ∧ r.tenantId = t) :
    ∃ before after, tenantRows log t = before ++ r :: after ∧ (∀ s ∈ before, s.id < r.id) ∧
      ∀ s ∈ after, r.id < s.id := by
  obtain ⟨before, after, hsplit⟩ := List.append_of_mem (mem_tenantRows.2 hr)
  have hids := tenantRows_ids (t := t) h
  rw [hsplit, List.pairwise_append, List.pairwise_cons] at hids
  exact ⟨before, after, hsplit, fun s hs => hids.2.2 s hs r List.mem_cons_self, hids.2.1.1⟩

/-- The copy with one row altered, listed where the row was. -/
theorem filter_change (h : LogInv log) {r r' : AuditRow} {before after : List AuditRow}
    (hsplit : tenantRows log t = before ++ r :: after) (hbefore : ∀ s ∈ before, s.id < r.id)
    (hafter : ∀ s ∈ after, r.id < s.id) (hr : r.tenantId = t) :
    ((log.map fun q => if q = r then r' else q).filter fun q => q.tenantId = t) =
      if r'.tenantId = t then before ++ r' :: after else before ++ after := by
  have hmap : ∀ l : List AuditRow, (∀ q ∈ l, q.id ≠ r.id) → (l.map fun q => if q = r then r' else q) = l := by
    intro l hl
    refine (List.map_congr_left fun q hq => ?_).trans (List.map_id l)
    have hne : q ≠ r := fun hqr => hl q hq (by rw [hqr])
    simp [hne]
  -- filtering by tenant before the change or after it is the same, but for the row itself
  have hfilter : ∀ l : List AuditRow, ((l.map fun q => if q = r then r' else q).filter fun q => q.tenantId = t) =
      ((l.filter fun q => q.tenantId = t).map fun q => if q = r then r' else q).filter fun q => q.tenantId = t := by
    intro l
    induction l with
    | nil => rfl
    | cons q l ih =>
      by_cases hq : q = r
      · subst hq
        simp [hr, ih, List.filter_cons]
      · by_cases hqt : q.tenantId = t
        · simp [hq, hqt, ih]
        · simp [hq, hqt, ih]
  have hkeep : ∀ l : List AuditRow, (∀ q ∈ l, q ∈ tenantRows log t) → (l.filter fun q => q.tenantId = t) = l := by
    intro l hl
    exact List.filter_eq_self.2 fun q hq => decide_eq_true (mem_tenantRows.1 (hl q hq)).2
  rw [hfilter, ← tenantRows_eq_filter h.ids, hsplit, List.map_append, List.map_cons, if_pos rfl,
    hmap before fun q hq => ne_of_lt (hbefore q hq), hmap after fun q hq => ne_of_gt (hafter q hq),
    List.filter_append, List.filter_cons, hkeep before fun q hq => by simp [hsplit, hq],
    hkeep after fun q hq => by simp [hsplit, hq]]
  split_ifs with ht ht' <;> simp_all

/-- A row put in by its id stands between the rows with smaller and those with
larger ids. -/
theorem tenantRows_place {table rows : List AuditRow} {x : AuditRow}
    (hperm : (table.filter fun r => r.tenantId = t).Perm (x :: rows))
    (hids : rows.Pairwise fun r s => r.id < s.id) (hx : ∀ r ∈ rows, r.id ≠ x.id) :
    tenantRows table t =
      (rows.filter fun r => r.id < x.id) ++ x :: rows.filter fun r => x.id < r.id := by
  have hgt : ∀ r ∈ rows, decide (x.id < r.id) = !decide (r.id < x.id) := by
    intro r hr
    have := hx r hr
    rw [← decide_not, decide_eq_decide]
    omega
  refine tenantRows_of_perm (hperm.trans ?_) ?_
  · rw [List.filter_congr hgt]
    exact ((List.filter_append_perm _ rows).symm.cons x).trans List.perm_middle.symm
  · refine List.pairwise_append.2 ⟨hids.filter _, List.pairwise_cons.2 ⟨fun r hr => ?_, hids.filter _⟩, ?_⟩
    · exact of_decide_eq_true (List.mem_filter.1 hr).2
    · intro r hr s hs
      have hrx := of_decide_eq_true (List.mem_filter.1 hr).2
      rcases List.mem_cons.1 hs with rfl | hs
      · exact hrx
      · exact hrx.trans (of_decide_eq_true (List.mem_filter.1 hs).2)

/-- The rows with smaller ids and those with larger ones are all the rows. -/
theorem filter_lt_append_gt {rows : List AuditRow} {n : ℤ} (hids : rows.Pairwise fun r s => r.id < s.id)
    (hn : ∀ r ∈ rows, r.id ≠ n) :
    (rows.filter fun r => r.id < n) ++ (rows.filter fun r => n < r.id) = rows := by
  induction rows with
  | nil => rfl
  | cons r rows ih =>
    obtain ⟨hr, hrows⟩ := List.pairwise_cons.1 hids
    have ih := ih hrows fun s hs => hn s (List.mem_cons_of_mem _ hs)
    have hne := hn r List.mem_cons_self
    by_cases hlt : r.id < n
    · have hgt : ¬ n < r.id := by omega
      rw [List.filter_cons_of_pos (by simpa using hlt), List.filter_cons_of_neg (by simpa using hgt),
        List.cons_append, ih]
    · -- from here on all ids are larger
      have hgt : n < r.id := by omega
      have hnone : (rows.filter fun s => s.id < n) = [] :=
        List.filter_eq_nil_iff.2 fun s hs => by have := hr s hs; simp; omega
      have hall : (rows.filter fun s => n < s.id) = rows :=
        List.filter_eq_self.2 fun s hs => by have := hr s hs; simp; omega
      rw [List.filter_cons_of_neg (by simpa using hlt), List.filter_cons_of_pos (by simpa using hgt),
        hnone, hall, List.nil_append]

/-- A row that keeps its id and tenant keeps its place. -/
theorem tenantRows_replace (h : LogInv log) {r r' : AuditRow} {before after : List AuditRow}
    (hsplit : tenantRows log t = before ++ r :: after) (hbefore : ∀ s ∈ before, s.id < r.id)
    (hafter : ∀ s ∈ after, r.id < s.id) (hr : r.tenantId = t) (ht : r'.tenantId = t) (hid : r'.id = r.id) :
    tenantRows (log.map fun q => if q = r then r' else q) t = before ++ r' :: after := by
  refine tenantRows_of_perm ?_ ?_
  · rw [filter_change h hsplit hbefore hafter hr, if_pos ht]
  · have hids := tenantRows_ids (t := t) h
    rw [hsplit] at hids
    have hmap := List.pairwise_map.2 hids
    have hsame : (before ++ r :: after).map AuditRow.id = (before ++ r' :: after).map AuditRow.id := by
      simp [hid]
    rw [hsame] at hmap
    exact List.pairwise_map.1 hmap

end Copy

/-! ### What is detected -/

section Detection

variable {log : List AuditRow} {t : String}

theorem logInputs_tenant (log : List AuditRow) (t : String) :
    hashedInputs (contents (tenantRows log t)) ⊆ logInputs log := fun _ hb => ⟨t, hb⟩

/-- A prefix of the rows is as intact as the rows. -/
theorem LogInv.intact_prefix (h : LogInv log) {rows : List AuditRow} (hp : rows <+: tenantRows log t) :
    Intact genesisDigest rows := by
  obtain ⟨more, hmore⟩ := hp
  have := h.intact t
  rw [← hmore] at this
  exact (intact_append.1 this).1

/-- In an intact list, a row of the log has as many rows before it as in the log. -/
theorem LogInv.length_fixed (h : LogInv log) {before after before' after' : List AuditRow} {r r' : AuditRow}
    (hsplit : tenantRows log t = before ++ r :: after)
    (hcf : Collisionless (logInputs log ∪ hashedInputs (contents (before' ++ r' :: after'))))
    (hc : r'.chainHash = r.chainHash) (hi : Intact genesisDigest (before' ++ r' :: after')) :
    before'.length = before.length := by
  have hlog := h.intact t
  rw [hsplit] at hlog
  refine Audit.length_fixed hi hlog (hcf.mono ?_) hc
  rw [Set.union_comm, ← hsplit]
  exact Set.union_subset_union_left _ (logInputs_tenant log t)

/-- If no row follows a deleted one, what is left is a prefix. -/
theorem filter_of_isPrefix {rows : List AuditRow} {gone : AuditRow → Bool}
    (hids : rows.Pairwise fun r s => r.id < s.id)
    (h : ∀ r ∈ rows, ∀ s ∈ rows, gone r = true → r.id < s.id → gone s = true) :
    (rows.filter fun r => !gone r) <+: rows := by
  induction rows with
  | nil => exact List.prefix_refl _
  | cons r rows ih =>
    obtain ⟨hr, hrows⟩ := List.pairwise_cons.1 hids
    cases hg : gone r with
    | false =>
      rw [List.filter_cons_of_pos (by simp [hg]), List.prefix_cons_inj]
      exact ih hrows fun q hq s hs => h q (List.mem_cons_of_mem _ hq) s (List.mem_cons_of_mem _ hs)
    | true =>
      have hall : (rows.filter fun s => !gone s) = [] := by
        refine List.filter_eq_nil_iff.2 fun s hs => ?_
        simp [h r List.mem_cons_self s (List.mem_cons_of_mem _ hs) hg (hr s hs)]
      rw [List.filter_cons_of_neg (by simp [hg]), hall]
      exact List.nil_prefix

theorem delete_detected_iff (h : LogInv log) {gone : AuditRow → Bool}
    (hcf : Collisionless (logInputs log ∪
      hashedInputs (contents ((tenantRows log t).filter fun r => !gone r)))) :
    ¬ Intact genesisDigest ((tenantRows log t).filter fun r => !gone r) ↔
      (Tampering.delete gone).Visible log t := by
  constructor
  · intro hbroken
    by_contra hvis
    refine hbroken (h.intact_prefix (filter_of_isPrefix (tenantRows_ids h) fun r hr s hs hg hlt => ?_))
    by_contra hs'
    exact hvis ⟨r, hr, s, hs, hg, by simpa using hs', hlt⟩
  · rintro ⟨r, hr, s, hs, hg, hkeep, hlt⟩ hi
    obtain ⟨before, after, hsplit, hbefore, hafter⟩ := tenantRows_split h (mem_tenantRows.1 hs)
    have hrb : r ∈ before := by
      rw [hsplit, List.mem_append, List.mem_cons] at hr
      rcases hr with hr | rfl | hr
      · exact hr
      · exact absurd hlt (lt_irrefl _)
      · exact absurd (hafter r hr) (not_lt.2 (le_of_lt hlt))
    rw [hsplit, List.filter_append, List.filter_cons_of_pos (by simp [hkeep])] at hi hcf
    have hlen := h.length_fixed hsplit hcf rfl hi
    -- the deleted row is missing before the other
    have hshort : (before.filter fun r => !gone r).length < before.length :=
      List.length_filter_lt_length_iff_exists.2 ⟨r, hrb, by simp [hg]⟩
    omega

/-- Another content under the old row hash. -/
theorem content_detected (h : LogInv log) {before after : List AuditRow} {r r' : AuditRow}
    (hsplit : tenantRows log t = before ++ r :: after)
    (hcf : Collisionless (logInputs log ∪ hashedInputs (contents (before ++ r' :: after))))
    (hrow : r'.rowHash = r.rowHash) (hne : r'.toAuditContent ≠ r.toAuditContent) :
    ¬ Intact genesisDigest (before ++ r' :: after) := by
  intro hi
  have hlog := h.intact t
  rw [hsplit] at hlog
  have h₁ := (intact_append.1 hi).2.1
  have h₂ := (intact_append.1 hlog).2.1
  rw [hrow, h₂, computeRowHash, computeRowHash, toHex_inj] at h₁
  have hmem : r.toAuditContent ∈ contents (tenantRows log t) := List.mem_map_of_mem (by simp [hsplit])
  have hmem' : r'.toAuditContent ∈ contents (before ++ r' :: after) := List.mem_map_of_mem (by simp)
  have htext := hcf.injOn (.inl (logInputs_tenant log t (.inl ⟨_, hmem, rfl⟩)))
    (.inr (.inl ⟨_, hmem', rfl⟩)) h₁
  exact hne (AuditContent.eq_of_dumps (utf8_inj.1 htext)).symm

/-- Another row hash or another chain hash on the old content. -/
theorem hash_detected (h : LogInv log) {before after : List AuditRow} {r r' : AuditRow}
    (hsplit : tenantRows log t = before ++ r :: after) (hcontent : r'.toAuditContent = r.toAuditContent)
    (hne : r'.rowHash ≠ r.rowHash ∨ r'.chainHash ≠ r.chainHash) :
    ¬ Intact genesisDigest (before ++ r' :: after) := by
  intro hi
  have hlog := h.intact t
  rw [hsplit] at hlog
  rcases hne with hrow | hchain
  · have h₁ := (intact_append.1 hi).2.1
    rw [hcontent, ← (intact_append.1 hlog).2.1] at h₁
    exact hrow h₁
  · have h₁ := hi.chainHash_eq
    rw [hcontent, ← hlog.chainHash_eq] at h₁
    exact hchain h₁

/-- A row written over to another tenant goes unnoticed exactly if it was the last. -/
theorem tenant_detected_iff (h : LogInv log) {before after : List AuditRow} {r : AuditRow}
    (hsplit : tenantRows log t = before ++ r :: after)
    (hcf : Collisionless (logInputs log ∪ hashedInputs (contents (before ++ after)))) :
    ¬ Intact genesisDigest (before ++ after) ↔ after ≠ [] := by
  constructor
  · rintro hbroken rfl
    rw [List.append_nil] at hbroken
    exact hbroken (h.intact_prefix ⟨[r], hsplit.symm⟩)
  · intro hne hi
    obtain ⟨s, after, rfl⟩ := List.exists_cons_of_ne_nil hne
    have hsplit' : tenantRows log t = (before ++ [r]) ++ s :: after := by simp [hsplit]
    have := h.length_fixed hsplit' hcf rfl hi
    simp at this

/-- A new id is seen exactly if the row passes another one. -/
theorem id_detected_iff (h : LogInv log) {before after : List AuditRow} {r : AuditRow} {n : ℤ}
    (hsplit : tenantRows log t = before ++ r :: after) (hbefore : ∀ s ∈ before, s.id < r.id)
    (hafter : ∀ s ∈ after, r.id < s.id) (hn : ∀ s ∈ before ++ after, s.id ≠ n)
    (hcf : Collisionless (logInputs log ∪ hashedInputs (contents
      (((before ++ after).filter fun s => s.id < n) ++ { r with id := n } ::
        (before ++ after).filter fun s => n < s.id)))) :
    ¬ Intact genesisDigest (((before ++ after).filter fun s => s.id < n) ++ { r with id := n } ::
        (before ++ after).filter fun s => n < s.id) ↔
      (Tampering.change r (.id n)).Visible log t := by
  constructor
  · intro hbroken
    by_contra hvis
    simp only [Tampering.Visible, hsplit, not_exists, not_and, not_or] at hvis
    -- nothing is passed, so the rows before and after are the same
    have hb : ∀ s ∈ before, s.id < n := fun s hs => by
      have h₁ := (hvis s (by simp [hs])).1 (hbefore s hs)
      have h₂ := hn s (by simp [hs])
      omega
    have ha : ∀ s ∈ after, n < s.id := fun s hs => by
      have h₁ := (hvis s (by simp [hs])).2 (hafter s hs)
      have h₂ := hn s (by simp [hs])
      omega
    have hlow : ((before ++ after).filter fun s => s.id < n) = before := by
      rw [List.filter_append, List.filter_eq_self.2 fun s hs => by simpa using hb s hs,
        List.filter_eq_nil_iff.2 fun s hs => by have := ha s hs; simp; omega, List.append_nil]
    have hhigh : ((before ++ after).filter fun s => n < s.id) = after := by
      rw [List.filter_append, List.filter_eq_nil_iff.2 fun s hs => by have := hb s hs; simp; omega,
        List.filter_eq_self.2 fun s hs => by simpa using ha s hs, List.nil_append]
    rw [hlow, hhigh] at hbroken
    have hlog := h.intact t
    rw [hsplit] at hlog
    obtain ⟨hpre, hrest⟩ := intact_append.1 hlog
    exact hbroken (intact_append.2 ⟨hpre, hrest⟩)
  · rintro ⟨s, hs, hpass⟩ hi
    have hlen := h.length_fixed hsplit hcf rfl hi
    rw [List.filter_append, List.length_append] at hlen
    rw [hsplit, List.mem_append, List.mem_cons] at hs
    rcases hpass with ⟨hlt, hns⟩ | ⟨hlt, hsn⟩
    · have hsb : s ∈ before := by
        rcases hs with hs | rfl | hs
        · exact hs
        · omega
        · have := hafter s hs; omega
      have hnone : (after.filter fun s => s.id < n) = [] :=
        List.filter_eq_nil_iff.2 fun q hq => by have := hafter q hq; simp; omega
      have hshort : (before.filter fun s => s.id < n).length < before.length :=
        List.length_filter_lt_length_iff_exists.2 ⟨s, hsb, by simp; omega⟩
      rw [hnone, List.length_nil] at hlen
      omega
    · have hsa : s ∈ after := by
        rcases hs with hs | rfl | hs
        · have := hbefore s hs; omega
        · omega
        · exact hs
      have hall : (before.filter fun s => s.id < n) = before :=
        List.filter_eq_self.2 fun q hq => by have := hbefore q hq; simp; omega
      have hpos : 0 < (after.filter fun s => s.id < n).length :=
        List.length_pos_of_mem (List.mem_filter.2 ⟨hsa, by simpa using hsn⟩)
      rw [hall] at hlen
      omega

/-- A row with a chain hash that is not its own. -/
theorem insert_detected (h : LogInv log) {before after : List AuditRow} {x : AuditRow}
    (hsplit : tenantRows log t = before ++ after) (hx : x.tenantId = t)
    (hcf : Collisionless (logInputs log ∪ hashedInputs (contents (before ++ x :: after))))
    (hc : x.chainHash = "" ∨ ∃ r ∈ log, x.chainHash = r.chainHash) :
    ¬ Intact genesisDigest (before ++ x :: after) := by
  intro hi
  rcases hc with hempty | ⟨r, hr, hc⟩
  · have hlen := congrArg String.length (hempty.symm.trans hi.chainHash_eq)
    rw [toHex_length, linkDigest, sha256_length] at hlen
    exact absurd hlen (by decide)
  · obtain ⟨pre, post, hr', -, -⟩ := tenantRows_split h ⟨hr, rfl⟩
    have hlog := h.intact r.tenantId
    rw [hr'] at hlog
    have hsub : hashedInputs (contents (before ++ x :: after)) ∪ hashedInputs (contents (pre ++ r :: post)) ⊆
        logInputs log ∪ hashedInputs (contents (before ++ x :: after)) := by
      rw [Set.union_comm, ← hr']
      exact Set.union_subset_union_left _ (logInputs_tenant log r.tenantId)
    obtain ⟨hpre, hcontent⟩ := position_fixed hi hlog (hcf.mono hsub) hc
    -- the row is one of the same tenant, and stands right behind its double
    obtain rfl : r.tenantId = t := by rw [← hx, hcontent]
    have hlen : before.length = pre.length := by simpa [contents] using congrArg List.length hpre
    obtain ⟨rfl, hafter⟩ := List.append_inj (hsplit.symm.trans hr') hlen
    subst hafter
    have hi' : Intact genesisDigest ((before ++ [x]) ++ r :: post) := by simpa using hi
    have hcf' : Collisionless (logInputs log ∪ hashedInputs (contents ((before ++ [x]) ++ r :: post))) := by
      simpa using hcf
    have := h.length_fixed hr' hcf' rfl hi'
    simp at this

/-- Two rows in each other's place. -/
theorem exchange_detected (h : LogInv log) {before between after : List AuditRow} {r s r' s' : AuditRow}
    (hsplit : tenantRows log t = before ++ r :: (between ++ s :: after)) (hs' : s'.chainHash = s.chainHash)
    (hcf : Collisionless (logInputs log ∪
      hashedInputs (contents (before ++ s' :: (between ++ r' :: after))))) :
    ¬ Intact genesisDigest (before ++ s' :: (between ++ r' :: after)) := by
  intro hi
  have hsplit' : tenantRows log t = (before ++ r :: between) ++ s :: after := by simp [hsplit]
  have := h.length_fixed hsplit' hcf hs' hi
  simp at this

/-- Two rows in their places. -/
theorem split_two {rows : List AuditRow} (hids : rows.Pairwise fun r s => r.id < s.id) {r s : AuditRow}
    (hr : r ∈ rows) (hs : s ∈ rows) (hlt : r.id < s.id) :
    ∃ before between after, rows = before ++ r :: (between ++ s :: after) := by
  obtain ⟨before, rest, rfl⟩ := List.append_of_mem hr
  obtain ⟨-, hrest, hcross⟩ := List.pairwise_append.1 hids
  have hsr : s ∈ rest := by
    rcases List.mem_append.1 hs with hs | hs
    · exact absurd (hcross s hs r List.mem_cons_self) (not_lt.2 (le_of_lt hlt))
    · rcases List.mem_cons.1 hs with rfl | hs
      · exact absurd hlt (lt_irrefl _)
      · exact hs
  obtain ⟨between, after, rfl⟩ := List.append_of_mem hsr
  exact ⟨before, between, after, rfl⟩

/-- Where an exchange puts the rows. -/
theorem tenantRows_exchange (h : LogInv log) {before between after : List AuditRow} {r s : AuditRow}
    (hsplit : tenantRows log t = before ++ r :: (between ++ s :: after)) :
    tenantRows ((Tampering.exchange r s).copy log) t =
      before ++ { s with id := r.id } :: (between ++ { r with id := s.id } :: after) := by
  have hids := tenantRows_ids (t := t) h
  rw [hsplit] at hids
  obtain ⟨f, hf⟩ : ∃ f : AuditRow → AuditRow, f = fun q =>
      if q = r then { r with id := s.id } else if q = s then { s with id := r.id } else q := ⟨_, rfl⟩
  have htenant : ∀ q, (f q).tenantId = q.tenantId := by
    intro q
    rw [hf]
    simp only
    split_ifs with h₁ h₂
    · rw [h₁]
    · rw [h₂]
    · rfl
  have hcopy : (((Tampering.exchange r s).copy log).filter fun q => q.tenantId = t) = (tenantRows log t).map f := by
    rw [Tampering.copy, ← hf, List.filter_map, tenantRows_eq_filter h.ids]
    simp only [Function.comp_def, htenant]
  -- the other rows have other ids
  have hmap := List.pairwise_map.2 hids
  have hnodup : ((before ++ r :: (between ++ s :: after)).map AuditRow.id).Nodup :=
    hmap.imp fun hlt => ne_of_lt hlt
  simp only [List.map_append, List.map_cons, List.nodup_append, List.nodup_cons, List.mem_append, List.mem_cons,
    List.mem_map, not_or, not_exists, not_and] at hnodup
  obtain ⟨-, ⟨⟨hrb, hrs, hra⟩, -, ⟨hsa, -⟩, hbs⟩, hpre⟩ := hnodup
  have hfix : ∀ q, q.id ≠ r.id → q.id ≠ s.id → f q = q := by
    intro q hqr hqs
    have h₁ : q ≠ r := fun hq => hqr (by rw [hq])
    have h₂ : q ≠ s := fun hq => hqs (by rw [hq])
    rw [hf]
    simp [h₁, h₂]
  have hfr : f r = { r with id := s.id } := by rw [hf]; simp
  have hfs : f s = { s with id := r.id } := by
    have hne : s ≠ r := fun hq => hrs (by rw [hq])
    rw [hf]
    simp [hne]
  have hmapfix : ∀ l : List AuditRow, (∀ q ∈ l, q.id ≠ r.id ∧ q.id ≠ s.id) → l.map f = l := fun l hl =>
    (List.map_congr_left fun q hq => hfix q (hl q hq).1 (hl q hq).2).trans (List.map_id l)
  have hb := hmapfix before fun q hq =>
    ⟨hpre q.id ⟨q, hq, rfl⟩ r.id (.inl rfl), hpre q.id ⟨q, hq, rfl⟩ s.id (.inr (.inr (.inl rfl)))⟩
  have hm := hmapfix between fun q hq => ⟨hrb q hq, hbs q.id ⟨q, hq, rfl⟩ s.id (.inl rfl)⟩
  have ha := hmapfix after fun q hq => ⟨hra q hq, hsa q hq⟩
  refine tenantRows_of_perm ?_ ?_
  · rw [hcopy, hsplit]
    simp only [List.map_append, List.map_cons, hb, hm, ha, hfr, hfs]
    refine List.Perm.append_left before ?_
    refine (List.perm_middle.cons _).trans ((List.Perm.swap _ _ _).trans ?_)
    exact (List.perm_middle.symm).cons _
  · have hsame : (before ++ r :: (between ++ s :: after)).map AuditRow.id =
        (before ++ { s with id := r.id } :: (between ++ { r with id := s.id } :: after)).map AuditRow.id := by
      simp
    rw [hsame] at hmap
    exact List.pairwise_map.1 hmap

theorem exchange_comm (log : List AuditRow) {r s : AuditRow} (hne : r ≠ s) :
    (Tampering.exchange r s).copy log = (Tampering.exchange s r).copy log := by
  refine List.map_congr_left fun q _ => ?_
  by_cases hr : q = r
  · have hs : q ≠ s := fun hs => hne (hr.symm.trans hs)
    simp [hr, hne]
  · simp [hr]

/-- A change of one column. -/
theorem change_detected_iff (h : LogInv log) {r : AuditRow} {c : Change}
    (hon : (Tampering.change r c).On log t)
    (hcf : Collisionless (logInputs log ∪
      hashedInputs (contents (tenantRows ((Tampering.change r c).copy log) t)))) :
    ¬ Intact genesisDigest (tenantRows ((Tampering.change r c).copy log) t) ↔
      (Tampering.change r c).Visible log t := by
  obtain ⟨hr, hne, hfree⟩ := hon
  obtain ⟨before, after, hsplit, hbefore, hafter⟩ := tenantRows_split h hr
  have hreplace := fun r' => @tenantRows_replace log t h r r' before after hsplit hbefore hafter hr.2
  -- a hashed column, and the hashes themselves
  have hhashed : ∀ r' : AuditRow, r' ≠ r → r'.tenantId = t →
      r' = { r with toAuditContent := r'.toAuditContent } →
      Collisionless (logInputs log ∪ hashedInputs (contents (tenantRows (log.map fun q => if q = r then r' else q) t))) →
      ¬ Intact genesisDigest (tenantRows (log.map fun q => if q = r then r' else q) t) := by
    intro r' hne ht hr' hcf
    rw [hreplace r' ht (by rw [hr'])] at hcf ⊢
    refine content_detected h hsplit hcf (by rw [hr']) fun hc => hne ?_
    rw [hr', hc]
  cases c with
  | id n =>
    have hperm : (((Tampering.change r (.id n)).copy log).filter fun q => q.tenantId = t).Perm
        ({ r with id := n } :: (before ++ after)) := by
      have hfilter := @filter_change log t h r { r with id := n } before after hsplit hbefore hafter hr.2
      simp only [hr.2, if_true] at hfilter
      rw [Tampering.copy, Change.apply, hfilter]
      exact List.perm_middle
    have hids := tenantRows_ids (t := t) h
    rw [hsplit] at hids
    have hn : ∀ s ∈ before ++ after, s.id ≠ n := by
      intro s hs
      have hmem : s ∈ tenantRows log t := by
        rw [hsplit]
        rcases List.mem_append.1 hs with hs | hs <;> simp [hs]
      refine hfree s (mem_tenantRows.1 hmem).1 fun hsr => ?_
      rcases List.mem_append.1 hs with hs | hs
      · exact absurd (hbefore s hs) (by simp [hsr])
      · exact absurd (hafter s hs) (by simp [hsr])
    have hrows := tenantRows_place hperm (hids.sublist (by simp)) hn
    rw [hrows] at hcf ⊢
    exact id_detected_iff h hsplit hbefore hafter hn hcf
  | tenantId u =>
    have hu : u ≠ t := fun hu => hne (by rw [hu, ← hr.2]; rfl)
    have hrows : tenantRows ((Tampering.change r (.tenantId u)).copy log) t = before ++ after := by
      refine tenantRows_of_perm ?_ ?_
      · rw [Tampering.copy, filter_change h hsplit hbefore hafter hr.2]
        simp [Change.apply, hu]
      · have hids := tenantRows_ids (t := t) h
        rw [hsplit] at hids
        exact hids.sublist (by simp)
    rw [hrows] at hcf ⊢
    rw [tenant_detected_iff h hsplit hcf]
    constructor
    · intro hafter'
      obtain ⟨s, after, rfl⟩ := List.exists_cons_of_ne_nil hafter'
      exact ⟨s, by simp [hsplit], hafter s List.mem_cons_self⟩
    · rintro ⟨s, hs, hlt⟩ rfl
      rw [hsplit, List.mem_append, List.mem_singleton] at hs
      rcases hs with hs | rfl
      · exact absurd (hbefore s hs) (not_lt.2 (le_of_lt hlt))
      · exact lt_irrefl _ hlt
  | prevChainHash p =>
    simp only [Tampering.Visible, iff_false, not_not]
    have hlog := h.intact t
    rw [hsplit] at hlog
    rw [Tampering.copy, hreplace (Change.apply r (.prevChainHash p)) hr.2 rfl]
    obtain ⟨hpre, hrest⟩ := intact_append.1 hlog
    exact intact_append.2 ⟨hpre, hrest⟩
  | rowHash p =>
    refine iff_of_true ?_ trivial
    rw [Tampering.copy, hreplace (Change.apply r (.rowHash p)) hr.2 rfl]
    refine hash_detected h hsplit rfl (.inl fun hp => hne ?_)
    have hp : p = r.rowHash := hp
    rw [hp]
    rfl
  | chainHash p =>
    refine iff_of_true ?_ trivial
    rw [Tampering.copy, hreplace (Change.apply r (.chainHash p)) hr.2 rfl]
    refine hash_detected h hsplit rfl (.inr fun hp => hne ?_)
    have hp : p = r.chainHash := hp
    rw [hp]
    rfl
  | _ => exact iff_of_true (hhashed _ hne hr.2 rfl hcf) trivial

/-- **What is detected**, on a log that `record` has written. -/
theorem detected_iff (h : LogInv log) {x : Tampering} (hon : x.On log t)
    (hcf : Collisionless (logInputs log ∪ hashedInputs (contents (tenantRows (x.copy log) t)))) :
    ¬ ChainValid (x.copy log) t ↔ x.Visible log t := by
  rw [chainValid_iff]
  cases x with
  | delete gone =>
    rw [tenantRows_delete h] at hcf ⊢
    exact delete_detected_iff h hcf
  | change r c => exact change_detected_iff h hon hcf
  | insert x =>
    obtain ⟨hx, hfree, hc⟩ := hon
    refine iff_of_true ?_ trivial
    have hids := tenantRows_ids (t := t) h
    have hfree' : ∀ r ∈ tenantRows log t, r.id ≠ x.id := fun r hr => hfree r (mem_tenantRows.1 hr).1
    have hperm : (((Tampering.insert x).copy log).filter fun q => q.tenantId = t).Perm (x :: tenantRows log t) := by
      rw [Tampering.copy, List.filter_append, ← tenantRows_eq_filter h.ids]
      simp [hx, List.perm_append_singleton]
    rw [tenantRows_place hperm hids hfree'] at hcf ⊢
    exact insert_detected h (filter_lt_append_gt hids hfree').symm hx hcf hc
  | exchange r s =>
    obtain ⟨hr, hs, hne⟩ := hon
    refine iff_of_true ?_ trivial
    have hids := tenantRows_ids (t := t) h
    rcases lt_trichotomy r.id s.id with hlt | heq | hlt
    · obtain ⟨before, between, after, hsplit⟩ := split_two hids (mem_tenantRows.2 hr) (mem_tenantRows.2 hs) hlt
      rw [tenantRows_exchange h hsplit] at hcf ⊢
      exact exchange_detected h hsplit rfl hcf
    · exact absurd (eq_of_id_eq hids (mem_tenantRows.2 hr) (mem_tenantRows.2 hs) heq) hne
    · obtain ⟨before, between, after, hsplit⟩ := split_two hids (mem_tenantRows.2 hs) (mem_tenantRows.2 hr) hlt
      rw [exchange_comm log hne, tenantRows_exchange h hsplit] at hcf ⊢
      exact exchange_detected h hsplit rfl hcf

end Detection

/-- The refused verification written over as a valid one. -/
def forged : Tampering := .change (sampleRow 1 genesisHash) (.result "valid")

/-- The columns of the forged row. -/
def forgedContent : AuditContent := { sampleContent with result := "valid" }

/-- What its row hash would be, as bytes. -/
def forgedDigest : Bytes :=
  [0xf2, 0x12, 0xd2, 0xd0, 0x1e, 0x12, 0xd8, 0x07, 0x0e, 0x48, 0xba, 0x5a, 0x07, 0xbc, 0x84, 0xb2,
   0x06, 0x03, 0x52, 0x2e, 0xab, 0x2f, 0x58, 0xa5, 0x59, 0x9e, 0x51, 0xaf, 0x48, 0x21, 0x49, 0x58]

/-- What its chain hash would be, as bytes. -/
def forgedLink : Bytes :=
  [0xd3, 0xf4, 0xab, 0x04, 0xea, 0x3f, 0x15, 0x3b, 0xd1, 0xf4, 0x03, 0xa5, 0xed, 0xeb, 0x92, 0x59,
   0x6b, 0x42, 0x33, 0x30, 0x70, 0xc0, 0x77, 0x26, 0xc2, 0xf0, 0xf2, 0x83, 0x40, 0xfa, 0x13, 0x90]

theorem forgedContent_digest : forgedContent.digest = forgedDigest := sha256_dumps (by decide +kernel)

theorem linkDigest_forgedContent : linkDigest genesisDigest forgedContent = forgedLink := by
  rw [linkDigest, forgedContent_digest]
  decide +kernel

theorem Collisionless.insert {a : Bytes} {s : Set Bytes} (h : Collisionless s)
    (hne : ∀ b ∈ s, sha256 a ≠ sha256 b) (ha : sha256 a ≠ genesisDigest) : Collisionless (insert a s) where
  injOn := by
    rintro x (rfl | hx) y (rfl | hy) hxy
    · rfl
    · exact absurd hxy (hne y hy)
    · exact absurd hxy.symm (hne x hx)
    · exact h.injOn hx hy hxy
  nonzero := by
    rintro x (rfl | hx)
    · exact ha
    · exact h.nonzero x hx

theorem forged_copy : forged.copy (recordAll [] [sampleEvent]) =
    [{ sampleRow 1 genesisHash with toAuditContent := forgedContent }] := by
  rw [recordAll_sampleEvent]
  simp [forged, Tampering.copy, Change.apply, forgedContent, sampleRow]

theorem logInputs_sample : logInputs (recordAll [] [sampleEvent]) = hashedInputs [sampleContent] := by
  rw [recordAll_sampleEvent]
  refine Set.Subset.antisymm ?_ fun b hb => ⟨"acme", by rw [tenantRows_sampleRow]; exact hb⟩
  rintro b ⟨t, hb⟩
  by_cases ht : "acme" = t
  · rw [← ht, tenantRows_sampleRow] at hb
    exact hb
  · have hnone : tenantRows [sampleRow 1 genesisHash] t = [] := by
      simp [tenantRows, sampleRow, sampleContent, ht]
    rw [hnone] at hb
    simp [hashedInputs, contents, HashChain.steps] at hb

end Audit
end ProvableAi
