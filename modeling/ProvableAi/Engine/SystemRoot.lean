/-
# The system root

`compute_system_root`: one digest for the whole ledger, the SHA-256 of the latest
hash of every instance, sorted and put together.

The root does not say which instance a hash belongs to, so two ledgers can have
one root (`Drift.Detector`).  Along a run it never comes back: the latest hash of
an instance determines the number of its decisions, because `sequence_id` is
hashed, so the root determines the sum of these numbers, which is the number of
all decisions (`sum_latestRows`, `systemRoot_distinct`).
-/

import ProvableAi.Package.Binding
import ProvableAi.Lib.Reorder
import Mathlib.Algebra.BigOperators.Group.List.Basic

namespace ProvableAi

open HashChain

/-! ### The program -/

/-- The rows with `sequence_id = (SELECT MAX(l2.sequence_id) FROM ledger l2 WHERE
l2.instance_id = ledger.instance_id)`. -/
def latestRows (ledger : List LedgerRow) : List LedgerRow :=
  ledger.filter fun r => ledger.all fun l => decide (l.instanceId = r.instanceId → l.sequenceId ≤ r.sequenceId)

/-- `SELECT … ORDER BY instance_id`. -/
def latestHashes (ledger : List LedgerRow) : List String :=
  ((latestRows ledger).insertionSort fun a b => a.instanceId ≤ b.instanceId).map LedgerRow.currentHash

/-- `"".join(sorted(latest_hashes))`. -/
def systemText (latestHashes : List String) : String := String.join (latestHashes.insertionSort (· ≤ ·))

/-- `compute_system_root`. -/
def computeSystemRoot (latestHashes : List String) : String :=
  if latestHashes = [] then String.ofList (List.replicate 64 '0') else sha256Hex (systemText latestHashes)

/-- `Engine.compute_system_root`, and the `GET /system/root` endpoint's. -/
def Db.computeSystemRoot (db : Db) : String := ProvableAi.computeSystemRoot (latestHashes db.ledger)

/-! ### The latest rows -/

section Latest

variable {ledger : List LedgerRow}

theorem latestHashes_perm (ledger : List LedgerRow) :
    (latestHashes ledger).Perm ((latestRows ledger).map LedgerRow.currentHash) :=
  (List.perm_insertionSort _ _).map _

/-- The latest row of an instance is its last. -/
theorem latestRows_on (hc : Chained ledger) (ho : OneTenant ledger) (i : String) :
    (latestRows ledger).filter (fun r => r.instanceId = i) = (rowsOf ledger defaultTenant i).getLast?.toList := by
  rw [← Linked.filter_last (hc defaultTenant i), latestRows, rowsOf, List.filter_filter, List.filter_filter]
  refine List.filter_congr fun r hr => ?_
  by_cases hi : r.instanceId = i
  · subst hi
    have ht : r.tenantId = defaultTenant := ho r hr
    simp only [ht, decide_true, and_self, Bool.true_and, Bool.and_true]
    rw [Bool.eq_iff_iff, List.all_eq_true, List.all_eq_true]
    constructor
    · intro h l hl
      obtain ⟨hmem, -, hli⟩ := mem_rowsOf.1 hl
      exact decide_eq_true (of_decide_eq_true (h l hmem) hli)
    · intro h l hl
      exact decide_eq_true fun hli => of_decide_eq_true (h l (mem_rowsOf.2 ⟨hl, ho l hl, hli⟩))
  · simp [hi]

/-- A row that continues its instance takes the place of the row before it. -/
theorem latestRows_concat {l : List LedgerRow} {r : LedgerRow} (hc : Chained (l ++ [r])) (ho : OneTenant (l ++ [r])) :
    latestRows (l ++ [r]) = (latestRows l).filter (fun x => decide (x.instanceId ≠ r.instanceId)) ++ [r] := by
  have ht : r.tenantId = defaultTenant := ho r (by simp)
  have hlt : ∀ x ∈ l, x.instanceId = r.instanceId → x.sequenceId < r.sequenceId := by
    intro x hx hi
    have hl := hc defaultTenant r.instanceId
    have hself : rowsOf [r] defaultTenant r.instanceId = [r] := ht ▸ rowsOf_self r
    rw [rowsOf_append, hself] at hl
    obtain ⟨hrows, -, hseq⟩ := Linked.concat.1 hl
    have hmem : x ∈ rowsOf l defaultTenant r.instanceId :=
      mem_rowsOf.2 ⟨hx, ho x (List.mem_append_left _ hx), hi⟩
    obtain ⟨k, hk⟩ := List.mem_iff_getElem?.1 hmem
    obtain ⟨hk', -⟩ := List.getElem?_eq_some_iff.1 hk
    have hxs : x.sequenceId = 1 + k := hrows.seq_get hk
    have hrs : r.sequenceId = 1 + (rowsOf l defaultTenant r.instanceId).length := hseq
    omega
  have hlast : ((l ++ [r]).all fun x => decide (x.instanceId = r.instanceId → x.sequenceId ≤ r.sequenceId)) = true := by
    refine List.all_eq_true.2 fun x hx => decide_eq_true fun hi => ?_
    rcases List.mem_append.1 hx with hx | hx
    · exact (hlt x hx hi).le
    · rw [List.mem_singleton.1 hx]
  have hone : [r].filter (fun x => (l ++ [r]).all fun y => decide (y.instanceId = x.instanceId →
      y.sequenceId ≤ x.sequenceId)) = [r] :=
    List.filter_eq_self.2 fun x hx => by rw [List.mem_singleton.1 hx]; exact hlast
  rw [latestRows, List.filter_append, hone, latestRows, List.filter_filter]
  refine congrArg (· ++ [r]) (List.filter_congr fun x hx => ?_)
  rw [List.all_append, Bool.and_comm]
  by_cases hi : x.instanceId = r.instanceId
  · have hnot := not_le.2 (hlt x hx hi)
    simp [hi, hnot]
  · simp [hi, Ne.symm hi]

/-- **The numbers of the latest rows add up to the number of rows.** -/
theorem sum_latestRows (hc : Chained ledger) (ho : OneTenant ledger) :
    ((latestRows ledger).map LedgerRow.sequenceId).sum = ledger.length := by
  induction ledger using List.reverseRecOn with
  | nil => rfl
  | append_singleton l r ih =>
    have hcl : Chained l := hc.of_prefix (List.prefix_append l [r])
    have hol : OneTenant l := fun x hx => ho x (List.mem_append_left _ hx)
    have ih := ih hcl hol
    have ht : r.tenantId = defaultTenant := ho r (by simp)
    -- the row before it had the number of rows of the instance
    have hlast : ((rowsOf l defaultTenant r.instanceId).getLast?.toList.map LedgerRow.sequenceId).sum =
        (rowsOf l defaultTenant r.instanceId).length := by
      obtain hnil | ⟨init, e, heq⟩ := List.eq_nil_or_concat (rowsOf l defaultTenant r.instanceId)
      · rw [hnil]
        rfl
      · have hl := hcl defaultTenant r.instanceId
        rw [heq, List.concat_eq_append] at hl ⊢
        have hseq : e.sequenceId = ((init ++ [e]).length : ℤ) := hl.seq_last
        simpa using hseq
    have hr : r.sequenceId = (rowsOf l defaultTenant r.instanceId).length + 1 := by
      have hl := hc defaultTenant r.instanceId
      have hself : rowsOf [r] defaultTenant r.instanceId = [r] := ht ▸ rowsOf_self r
      rw [rowsOf_append, hself] at hl
      have hseq : r.sequenceId = 1 + _ := (Linked.concat.1 hl).2.2
      omega
    have hsplit := ((List.filter_append_perm (fun x : LedgerRow => decide (x.instanceId = r.instanceId))
      (latestRows l)).map LedgerRow.sequenceId).sum_eq
    rw [List.map_append, List.sum_append, latestRows_on hcl hol, hlast, ih] at hsplit
    rw [latestRows_concat hc ho, List.map_append, List.sum_append]
    simp only [List.map_cons, List.map_nil, List.sum_cons, List.sum_nil, List.length_append, List.length_singleton,
      ne_eq, decide_not] at hsplit ⊢
    push_cast
    omega

end Latest

/-! ### What a root determines -/

/-- Roots of nonempty ledgers determine the latest hashes up to order. -/
theorem perm_of_systemText {xs ys : List String} (hx : ∀ x ∈ xs, x.length = 64) (hy : ∀ y ∈ ys, y.length = 64)
    (h : systemText xs = systemText ys) : xs.Perm ys := by
  have hsorted : xs.insertionSort (· ≤ ·) = ys.insertionSort (· ≤ ·) :=
    join_inj (fun x hm => hx x ((List.mem_insertionSort _).1 hm)) (fun y hm => hy y ((List.mem_insertionSort _).1 hm)) h
  exact (List.perm_insertionSort _ xs).symm.trans (hsorted ▸ List.perm_insertionSort _ ys)

/-- Roots of as many hashes are equal exactly if the hashes are, up to order. -/
theorem computeSystemRoot_eq_iff {xs ys : List String} (hx : ∀ x ∈ xs, x.length = 64) (hy : ∀ y ∈ ys, y.length = 64)
    {texts : Set String} (hsha : CollisionFree texts) (htx : systemText xs ∈ texts) (hty : systemText ys ∈ texts) :
    computeSystemRoot xs = computeSystemRoot ys ∧ xs.length = ys.length ↔ xs.Perm ys := by
  constructor
  · rintro ⟨heq, hlen⟩
    rw [computeSystemRoot, computeSystemRoot] at heq
    split_ifs at heq with hnil hnil' hnil'
    · rw [hnil, hnil']
    · rw [hnil, List.length_nil] at hlen
      exact absurd (List.length_eq_zero_iff.1 hlen.symm) hnil'
    · rw [hnil', List.length_nil] at hlen
      exact absurd (List.length_eq_zero_iff.1 hlen) hnil
    · exact perm_of_systemText hx hy (hsha htx hty heq)
  · intro hperm
    have hsort : xs.insertionSort (· ≤ ·) = ys.insertionSort (· ≤ ·) :=
      List.Perm.eq_of_pairwise (fun a b _ _ => le_antisymm) (List.pairwise_insertionSort _ _)
        (List.pairwise_insertionSort _ _) ((List.perm_insertionSort _ xs).trans
          (hperm.trans (List.perm_insertionSort _ ys).symm))
    have hnil : xs = [] ↔ ys = [] := by rw [← List.length_eq_zero_iff, hperm.length_eq, List.length_eq_zero_iff]
    exact ⟨by simp only [computeSystemRoot, systemText, hsort, hnil], hperm.length_eq⟩

section Runs

variable {signer signer' : Signer}

/-- The text of a recorded decision that is hashed. -/
def decisionTexts (acc : List (DecisionArgs × ProofV1)) : Set String := {t | ∃ ap ∈ acc, t = dumps ap.2.payload}

namespace Inv

variable {db : Db} {acc : List (DecisionArgs × ProofV1)}

theorem length_ledger (h : Inv signer db acc) : db.ledger.length = acc.length := by
  rw [h.ledger, List.length_map]

/-- A row of the ledger is that of a recorded proof. -/
theorem exists_proof (h : Inv signer db acc) {r : LedgerRow} (hr : r ∈ db.ledger) :
    ∃ ap ∈ acc, r = ap.2.row ∧ Built signer ap.1 ap.2 := by
  rw [h.ledger] at hr
  obtain ⟨ap, hap, rfl⟩ := List.mem_map.1 hr
  exact ⟨ap, hap, rfl, h.built ap hap⟩

theorem length_latestHashes (h : Inv signer db acc) : ∀ x ∈ latestHashes db.ledger, x.length = 64 := by
  intro x hx
  obtain ⟨r, hr, rfl⟩ := List.mem_map.1 ((latestHashes_perm _).mem_iff.1 hx)
  obtain ⟨ap, -, rfl, hb⟩ := h.exists_proof (List.mem_of_mem_filter hr)
  have hcur : ap.2.row.currentHash = ap.2.ledger.currentHash.text := rfl
  rw [hcur, hb.hash_eq, sha256Hex_length]

end Inv

/-- Recorded proofs with one hash have one content. -/
theorem Built.content_eq {a b : DecisionArgs} {p q : ProofV1} (hp : Built signer a p) (hq : Built signer' b q)
    {texts : Set String} (hsha : CollisionFree texts) (hpt : dumps p.payload ∈ texts) (hqt : dumps q.payload ∈ texts)
    (h : p.ledger.currentHash.text = q.ledger.currentHash.text) : p.content = q.content := by
  rw [hp.hash_eq, hq.hash_eq] at h
  exact ProofV1.content_eq_of_dumps (ProofV1.payload_wf.2 (ProofV1.dump_wf.1 hp.wf))
    (ProofV1.payload_wf.2 (ProofV1.dump_wf.1 hq.wf)) (hsha hpt hqt h)

section TwoLedgers

variable {db db' : Db} {acc acc' : List (DecisionArgs × ProofV1)} {texts : Set String}

/-- **A last hash determines its chain**: nonempty chains with one last hash hold the
same contents. -/
theorem Inv.contents_of_tip (h : Inv signer db acc) (h' : Inv signer' db' acc') (hsha : CollisionFree texts)
    (hdec : decisionTexts acc ⊆ texts) (hdec' : decisionTexts acc' ⊆ texts) {i j : String}
    (hne : onInstance i acc ≠ []) (hne' : onInstance j acc' ≠ [])
    (htip : tip proofReading genesisHash ((onInstance i acc).map Prod.snd) =
      tip proofReading genesisHash ((onInstance j acc').map Prod.snd)) :
    (onInstance i acc).map (fun ap => ap.2.content) = (onInstance j acc').map fun ap => ap.2.content := by
  have hmem : ∀ {k : String} {bs : List (DecisionArgs × ProofV1)} {p : ProofV1}, p ∈ (onInstance k bs).map Prod.snd →
      ∃ a, (a, p) ∈ bs := by
    intro k bs p hp
    obtain ⟨ap, hap, rfl⟩ := List.mem_map.1 hp
    exact ⟨ap.1, (List.mem_filter.1 hap).1⟩
  have hcontents := contents_eq_of_tip_eq (R := proofReading) ProofV1.content
    (fun _ _ _ _ h => congrArg ProofV1.Content.previousHash h)
    (fun _ _ _ _ h => congrArg ProofV1.Content.sequenceId h)
    (fun p hp q hq hpq => by
      obtain ⟨a, ha⟩ := hmem hp
      obtain ⟨b, hb⟩ := hmem hq
      exact (h.built _ ha).content_eq (h'.built _ hb) hsha (hdec ⟨_, ha, rfl⟩) (hdec' ⟨_, hb, rfl⟩) hpq)
    (h.linked i) (h'.linked j) (by simpa using hne) (by simpa using hne') htip
  rwa [List.map_map, List.map_map] at hcontents

/-- Equal roots come from the same latest hashes, if there are any. -/
theorem Inv.perm_of_root (h : Inv signer db acc) (h' : Inv signer' db' acc') (hsha : CollisionFree texts)
    (hzero : ∀ t ∈ texts, sha256Hex t ≠ String.ofList (List.replicate 64 '0'))
    (ht : systemText (latestHashes db.ledger) ∈ texts) (ht' : systemText (latestHashes db'.ledger) ∈ texts)
    (heq : db.computeSystemRoot = db'.computeSystemRoot) :
    (latestHashes db.ledger).Perm (latestHashes db'.ledger) := by
  rw [Db.computeSystemRoot, Db.computeSystemRoot, computeSystemRoot, computeSystemRoot] at heq
  split_ifs at heq with hnil hnil' hnil'
  · rw [hnil, hnil']
  · exact absurd heq.symm (hzero _ ht')
  · exact absurd heq (hzero _ ht)
  · exact perm_of_systemText h.length_latestHashes h'.length_latestHashes (hsha ht ht' heq)

/-- **The root determines the number of decisions.** -/
theorem Inv.length_of_root (h : Inv signer db acc) (h' : Inv signer' db' acc') (hsha : CollisionFree texts)
    (hzero : ∀ t ∈ texts, sha256Hex t ≠ String.ofList (List.replicate 64 '0'))
    (ht : systemText (latestHashes db.ledger) ∈ texts) (ht' : systemText (latestHashes db'.ledger) ∈ texts)
    (hdec : decisionTexts acc ⊆ texts) (hdec' : decisionTexts acc' ⊆ texts)
    (heq : db.computeSystemRoot = db'.computeSystemRoot) : acc.length = acc'.length := by
  have hperm : ((latestRows db.ledger).map LedgerRow.currentHash).Perm
      ((latestRows db'.ledger).map LedgerRow.currentHash) :=
    ((latestHashes_perm _).symm.trans (h.perm_of_root h' hsha hzero ht ht' heq)).trans (latestHashes_perm _)
  -- the hashes determine the numbers
  have hseq : ((latestRows db.ledger).map LedgerRow.sequenceId).Perm
      ((latestRows db'.ledger).map LedgerRow.sequenceId) := by
    refine Reorder.map_perm_congr hperm fun r hr q hq hcur => ?_
    obtain ⟨ap, hap, rfl, hb⟩ := h.exists_proof (List.mem_of_mem_filter hr)
    obtain ⟨bq, hbq, rfl, hb'⟩ := h'.exists_proof (List.mem_of_mem_filter hq)
    exact congrArg ProofV1.Content.sequenceId
      (hb.content_eq hb' hsha (hdec ⟨ap, hap, rfl⟩) (hdec' ⟨bq, hbq, rfl⟩) hcur)
  have hsum := hseq.sum_eq
  rw [sum_latestRows h.chained h.oneTenant, sum_latestRows h'.chained h'.oneTenant, h.length_ledger,
    h'.length_ledger] at hsum
  exact_mod_cast hsum

end TwoLedgers

/-- The texts that are hashed in a run for its decisions and for the root after
each of its calls. -/
def systemTexts (signer : Signer) (ops : List Op) : Set String :=
  decisionTexts (recorded (Engine.fresh.run signer ops).2) ∪
    {t | ∃ xs, xs <+: ops ∧ t = systemText (latestHashes (Engine.fresh.run signer xs).1.db.ledger)}

/-- **No root comes back.**  In a run whose hashed texts have different digests,
none of them all zeros, the roots after different numbers of recorded decisions
are different. -/
theorem systemRoot_distinct {ops xs ys : List Op} (hx : xs <+: ops) (hy : ys <+: ops)
    (hsha : CollisionFree (systemTexts signer ops))
    (hzero : ∀ t ∈ systemTexts signer ops, sha256Hex t ≠ String.ofList (List.replicate 64 '0'))
    (hne : (recorded (Engine.fresh.run signer xs).2).length ≠ (recorded (Engine.fresh.run signer ys).2).length) :
    (Engine.fresh.run signer xs).1.db.computeSystemRoot ≠ (Engine.fresh.run signer ys).1.db.computeSystemRoot := by
  have hdec : ∀ {zs : List Op}, zs <+: ops →
      decisionTexts (recorded (Engine.fresh.run signer zs).2) ⊆ systemTexts signer ops := by
    rintro zs ⟨ws, rfl⟩ t ⟨ap, hap, rfl⟩
    refine .inl ⟨ap, ?_, rfl⟩
    rw [Engine.run_append, recorded_append]
    exact List.mem_append_left _ hap
  intro heq
  exact hne ((inv_run signer xs).length_of_root (inv_run signer ys) hsha hzero (.inr ⟨xs, hx, rfl⟩) (.inr ⟨ys, hy, rfl⟩)
    (hdec hx) (hdec hy) heq)

theorem latestHashes_singleton (r : LedgerRow) : latestHashes [r] = [r.currentHash] := by
  simp [latestHashes, latestRows]

theorem systemText_singleton (t : String) : systemText [t] = t := by
  simp [systemText]

/-- What the run of the loan hashes. -/
theorem systemTexts_loanRun : systemTexts loanSigner (loanRun none) ⊆ {"", loanHash, dumps loanPayload} := by
  obtain ⟨p, hb, hrun, hrec⟩ := loanRun_records none
  have hloan := isLoan_of_buildProof hb
  rintro t (⟨ap, hap, rfl⟩ | ⟨xs, hxs, rfl⟩)
  · rw [hrec] at hap
    obtain rfl := List.mem_singleton.1 hap
    exact .inr (.inr (congrArg dumps hloan.payload))
  · have hledger := (inv_run loanSigner xs).ledger
    rcases List.prefix_concat_iff.1 hxs with rfl | hpre
    · rw [← loanRun, hrec] at hledger
      have hhash : p.row.currentHash = loanHash := hloan.currentHash
      rw [← loanRun, hledger, List.map_singleton, latestHashes_singleton, hhash, systemText_singleton]
      exact .inr (.inl rfl)
    · -- approvals record nothing
      obtain ⟨ws, hws⟩ := hpre
      have hnone : recorded (Engine.fresh.run loanSigner xs).2 = [] := by
        have happ : recorded (Engine.fresh.run loanSigner approvals).2 = [] := rfl
        rw [← hws, Engine.run_append, recorded_append] at happ
        exact (List.append_eq_nil_iff.1 happ).1
      rw [hnone] at hledger
      rw [hledger]
      exact .inl rfl

/-- The three digests begin with different bytes. -/
theorem systemTexts_heads : (sha256 (utf8 "")).head? = some 0xe3 ∧ (sha256 (utf8 loanHash)).head? = some 0xde ∧
    (sha256 (utf8 (dumps loanPayload))).head? = some 0x1b :=
  ⟨loanHash_heads.2.2, loanHash_heads.1, by rw [sha256_loanPayload]; rfl⟩

/-- The root before the loan's decision and the root after it. -/
theorem systemRoot_distinct_loan : (Engine.fresh.run loanSigner approvals).1.db.computeSystemRoot ≠
    (Engine.fresh.run loanSigner (loanRun none)).1.db.computeSystemRoot := by
  obtain ⟨h₁, h₂, h₃⟩ := systemTexts_heads
  refine systemRoot_distinct (List.prefix_append approvals _) (List.prefix_refl (loanRun none)) ?_ ?_ ?_
  · refine CollisionFree.mono ?_ systemTexts_loanRun
    intro x hx y hy hxy
    have hhead : (sha256 (utf8 x)).head? = (sha256 (utf8 y)).head? := by
      rw [toHex_inj.1 hxy]
    rcases hx with rfl | rfl | rfl <;> rcases hy with rfl | rfl | rfl <;>
      first | rfl | (simp only [h₁, h₂, h₃] at hhead; exact absurd hhead (by decide))
  · intro t ht hzero
    have hdigest : sha256 (utf8 t) = List.replicate 32 0 := by
      rw [← toHex_inj]
      exact hzero
    rcases systemTexts_loanRun ht with rfl | rfl | rfl <;> simp [hdigest] at h₁ h₂ h₃
  · obtain ⟨p, -, -, hrec⟩ := loanRun_records none
    have hnone : recorded (Engine.fresh.run loanSigner approvals).2 = [] := rfl
    rw [hrec, hnone]
    simp

end Runs

end ProvableAi
