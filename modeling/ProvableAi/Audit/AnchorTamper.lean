/-
# What the anchor store detects

One column of one row of a store that `anchor` has filled is changed, and no other
column is recomputed.  "Any modification to any anchor record is detectable", says
`verify_anchor_chain`; but it neither hashes nor compares `anchor_backends` and
`prev_anchor_hash`, reads an id only for the order of the rows, and has nothing
outside of the tenant's rows to compare with.

`anchor_change_detected_iff` says which changes it finds.  A row is determined by
its text (`AnchorContent.eq_of_dumpsAscii`), and what stands before it by its
chain hash (`length_fixed`).
-/

import ProvableAi.Audit.Anchor
import ProvableAi.Json.Ascii
import ProvableAi.Lib.Altered

namespace ProvableAi
namespace Anchor

open HashChain Autoincrement

/-! ### Changes -/

/-- A column and its new value. -/
inductive Change where
  | id (n : ℤ)
  | anchorId (s : String)
  | tenantId (s : String)
  | chainHash (s : String)
  | anchoredAt (s : String)
  | anchorSeq (n : ℤ)
  | anchorBackends (s : String)
  | rfc3161Json (s : Option String)
  | rowHash (s : String)
  | prevAnchorHash (s : String)
  | anchorChainHash (s : String)

/-- The row with the new value. -/
def Change.apply (r : AnchorRow) : Change → AnchorRow
  | .id n => { r with id := n }
  | .anchorId s => { r with anchorId := s }
  | .tenantId s => { r with tenantId := s }
  | .chainHash s => { r with chainHash := s }
  | .anchoredAt s => { r with anchoredAt := s }
  | .anchorSeq n => { r with anchorSeq := n }
  | .anchorBackends s => { r with anchorBackends := s }
  | .rfc3161Json s => { r with rfc3161Json := s }
  | .rowHash s => { r with rowHash := s }
  | .prevAnchorHash s => { r with prevAnchorHash := s }
  | .anchorChainHash s => { r with anchorChainHash := s }

/-- The change shows: a new id changes the order of the tenant's rows, a row moved to another tenant is followed by one
that stays, and any other change but that of the two columns that nothing reads. -/
def Change.Visible (log : List AnchorRow) (r : AnchorRow) : Change → Prop
  | .id n => ∃ s ∈ tenantRows log r.tenantId, (s.id < r.id ∧ n < s.id) ∨ (r.id < s.id ∧ s.id < n)
  | .tenantId _ => ∃ s ∈ tenantRows log r.tenantId, r.id < s.id
  | .anchorBackends _ => False
  | .prevAnchorHash _ => False
  | _ => True

/-! ### Rows in intact lists -/

theorem AnchorContent.toJson_wf (c : AnchorContent) : c.toJson.wf = true := by
  have hopt : (Json.ofOptStr c.rfc3161Json).wf = true := by cases c.rfc3161Json <;> rfl
  rw [AnchorContent.toJson, Json.wf_obj]
  constructor
  · simp only [List.map_cons, List.map_nil]
    decide
  · simp [hopt, Json.wf]

/-- The text of a row determines its columns. -/
theorem AnchorContent.eq_of_dumpsAscii {c d : AnchorContent}
    (h : KeyRegistry.dumpsAscii c.toJson = KeyRegistry.dumpsAscii d.toJson) : c = d := by
  have hatoms : ∀ c : AnchorContent, ∀ kv ∈ [("anchor_id", Json.str c.anchorId), ("tenant_id", .str c.tenantId),
      ("chain_hash", .str c.chainHash), ("anchored_at", .str c.anchoredAt), ("anchor_seq", .int c.anchorSeq),
      ("rfc3161", .ofOptStr c.rfc3161Json)], KeyRegistry.IsAtom kv.2 := by
    intro c kv hkv
    have hopt : KeyRegistry.IsAtom (.ofOptStr c.rfc3161Json) := by cases c.rfc3161Json <;> trivial
    simp only [List.mem_cons, List.not_mem_nil, or_false] at hkv
    rcases hkv with rfl | rfl | rfl | rfl | rfl | rfl
    · trivial
    · trivial
    · trivial
    · trivial
    · trivial
    · exact hopt
  have hcanon : c.toJson.canon = d.toJson.canon := (KeyRegistry.dumpsAscii_obj_inj (hatoms c) (hatoms d)).1 h
  have hget : ∀ k, (c.toJson.get? k).map Json.canon = (d.toJson.get? k).map Json.canon := fun k => by
    rw [← Json.get?_canon c.toJson_wf, hcanon, Json.get?_canon d.toJson_wf]
  obtain ⟨a, t, ch, at_, n, rfc⟩ := c
  obtain ⟨a', t', ch', at', n', rfc'⟩ := d
  obtain rfl := Json.str.inj (Option.some.inj (hget "anchor_id"))
  obtain rfl := Json.str.inj (Option.some.inj (hget "tenant_id"))
  obtain rfl := Json.str.inj (Option.some.inj (hget "chain_hash"))
  obtain rfl := Json.str.inj (Option.some.inj (hget "anchored_at"))
  obtain rfl := Json.int.inj (Option.some.inj (hget "anchor_seq"))
  have hrfc : (Json.ofOptStr rfc).canon = (Json.ofOptStr rfc').canon := Option.some.inj (hget "rfc3161")
  obtain rfl : rfc = rfc' := by
    cases rfc <;> cases rfc' <;> simp [Json.ofOptStr] at hrfc ⊢
    exact hrfc
  rfl

/-- The byte strings that are hashed along a list of contents: the text of each row, and each chain hash with the row hash
after it. -/
def hashedInputs (cs : List AnchorContent) : Set Bytes :=
  {b | ∃ c ∈ cs, b = utf8 (KeyRegistry.dumpsAscii c.toJson)} ∪
    {b | ∃ p ∈ steps linkDigest Audit.genesisDigest cs, b = p.1 ++ p.2.digest}

/-- A chain hash determines the chain hash before it and the row. -/
theorem linkDigest_inj {cs ds : List AnchorContent} (hcf : Audit.Collisionless (hashedInputs cs ∪ hashedInputs ds)) :
    ∀ p ∈ steps linkDigest Audit.genesisDigest cs, ∀ q ∈ steps linkDigest Audit.genesisDigest ds,
      linkDigest p.1 p.2 = linkDigest q.1 q.2 → p = q := by
  intro p hp q hq h
  have hlen : ∀ {xs : List AnchorContent} {p}, p ∈ steps linkDigest Audit.genesisDigest xs → p.1.length = 32 := fun hp =>
    steps_forall (P := fun d : Bytes => d.length = 32) linkDigest rfl (fun _ _ => sha256_length _) hp
  have happ : p.1 ++ p.2.digest = q.1 ++ q.2.digest := hcf.injOn (.inl (.inr ⟨p, hp, rfl⟩)) (.inr (.inr ⟨q, hq, rfl⟩)) h
  obtain ⟨hprev, hdigest⟩ := List.append_inj happ ((hlen hp).trans (hlen hq).symm)
  have htext := hcf.injOn (.inl (.inl ⟨p.2, mem_of_mem_steps _ hp, rfl⟩)) (.inr (.inl ⟨q.2, mem_of_mem_steps _ hq, rfl⟩)) hdigest
  exact Prod.ext hprev (AnchorContent.eq_of_dumpsAscii (utf8_inj.1 htext))

section Detection

variable {before after before' after' : List AnchorRow} {r r' : AnchorRow}

/-- **A chain hash fixes the position of its row.** -/
theorem length_fixed (h : Intact Audit.genesisDigest (before ++ r :: after))
    (h' : Intact Audit.genesisDigest (before' ++ r' :: after'))
    (hcf : Audit.Collisionless (hashedInputs (contents (before ++ r :: after)) ∪
      hashedInputs (contents (before' ++ r' :: after')))) (hc : r.anchorChainHash = r'.anchorChainHash) :
    before.length = before'.length := by
  have hfixed := Sealed.contents_fixed h h' (fun d d' hd hd' => toHex_inj.1 (hd.2.symm.trans (hc.trans hd'.2)))
    (linkDigest_inj hcf) (fun p hp => hcf.nonzero _ (.inl (.inr ⟨p, hp, rfl⟩)))
    (fun p hp => hcf.nonzero _ (.inr (.inr ⟨p, hp, rfl⟩)))
  simpa using congrArg List.length hfixed

/-- A row with the same hashed columns in its place: only its two hashes matter. -/
theorem intact_same_iff (h : Intact Audit.genesisDigest (before ++ r :: after))
    (hcontent : r'.toAnchorContent = r.toAnchorContent) :
    Intact Audit.genesisDigest (before ++ r' :: after) ↔
      r'.rowHash = r.rowHash ∧ r'.anchorChainHash = r.anchorChainHash := by
  obtain ⟨hbefore, hr, hafter⟩ := sealed_append.1 h
  rw [Intact, sealed_append, Sealed]
  simp only [hcontent, Agrees, ← hr.1, ← hr.2]
  exact ⟨fun h => h.2.1, fun h => ⟨hbefore, h, hafter⟩⟩

/-- Other hashed columns under the old row hash. -/
theorem content_detected (h : Intact Audit.genesisDigest (before ++ r :: after))
    (hcf : Audit.Collisionless (hashedInputs (contents (before ++ r :: after)) ∪
      hashedInputs (contents (before ++ r' :: after))))
    (hrow : r'.rowHash = r.rowHash) (hne : r'.toAnchorContent ≠ r.toAnchorContent) :
    ¬ Intact Audit.genesisDigest (before ++ r' :: after) := by
  intro h'
  have hr := (sealed_append.1 h).2.1.1
  have hr' := (sealed_append.1 h').2.1.1
  rw [hrow, hr, computeAnchorRowHash, computeAnchorRowHash, toHex_inj] at hr'
  have hmem : ∀ x : AnchorRow, x.toAnchorContent ∈ contents (before ++ x :: after) := fun x =>
    List.mem_map_of_mem (by simp)
  have htext := hcf.injOn (.inl (.inl ⟨_, hmem r, rfl⟩)) (.inr (.inl ⟨_, hmem r', rfl⟩)) hr'
  exact hne (AnchorContent.eq_of_dumpsAscii (utf8_inj.1 htext)).symm

/-- A row that is taken out goes unnoticed exactly if it was the last. -/
theorem intact_without_iff (h : Intact Audit.genesisDigest (before ++ r :: after))
    (hcf : Audit.Collisionless (hashedInputs (contents (before ++ r :: after)) ∪
      hashedInputs (contents (before ++ after)))) :
    Intact Audit.genesisDigest (before ++ after) ↔ after = [] := by
  constructor
  · intro h'
    cases after with
    | nil => rfl
    | cons s after =>
      have hcut : before ++ r :: s :: after = (before ++ [r]) ++ s :: after := by simp
      rw [hcut] at h hcf
      have hlen := length_fixed h h' hcf rfl
      simp at hlen
  · rintro rfl
    rw [List.append_nil]
    exact (sealed_append.1 h).1

/-- A row that is moved goes unnoticed exactly if it passes no other. -/
theorem intact_moved_iff {rows : List AnchorRow} {n : ℤ} (h : Intact Audit.genesisDigest (before ++ r :: after))
    (hids : Ascending AnchorRow.id (before ++ r :: after)) (hfree : ∀ s ∈ before ++ after, s.id ≠ n)
    (hrows : rows = ((before ++ after).filter fun s => s.id < n) ++ { r with id := n } ::
      (before ++ after).filter fun s => n < s.id)
    (hcf : Audit.Collisionless (hashedInputs (contents (before ++ r :: after)) ∪ hashedInputs (contents rows))) :
    Intact Audit.genesisDigest rows ↔
      ¬ ∃ s ∈ before ++ r :: after, (s.id < r.id ∧ n < s.id) ∨ (r.id < s.id ∧ s.id < n) := by
  obtain ⟨-, hafter, hbefore⟩ := List.pairwise_append.1 hids
  have hafter := (List.pairwise_cons.1 hafter).1
  have hbefore := fun s hs => hbefore s hs r List.mem_cons_self
  subst hrows
  constructor
  · rintro h' ⟨s, hs, hpass⟩
    have hlen := length_fixed h h' hcf rfl
    rw [List.filter_append, List.length_append] at hlen
    rw [List.mem_append, List.mem_cons] at hs
    rcases hpass with ⟨hlt, hns⟩ | ⟨hlt, hsn⟩
    · -- moved to the front of a row that was before it
      have hsb : s ∈ before := by
        rcases hs with hs | rfl | hs
        · exact hs
        · exact absurd hlt (lt_irrefl _)
        · exact absurd hlt (not_lt.2 (le_of_lt (hafter s hs)))
      have hnone : (after.filter fun s => s.id < n) = [] := by
        refine List.filter_eq_nil_iff.2 fun q hq => ?_
        have hq := hafter q hq
        simp only [decide_eq_true_eq]
        omega
      have hshort : (before.filter fun s => s.id < n).length < before.length := by
        refine List.length_filter_lt_length_iff_exists.2 ⟨s, hsb, ?_⟩
        simp only [decide_eq_true_eq]
        omega
      rw [hnone, List.length_nil] at hlen
      omega
    · -- moved behind a row that was after it
      have hsa : s ∈ after := by
        rcases hs with hs | rfl | hs
        · exact absurd hlt (not_lt.2 (le_of_lt (hbefore s hs)))
        · exact absurd hlt (lt_irrefl _)
        · exact hs
      have hall : (before.filter fun s => s.id < n) = before := by
        refine List.filter_eq_self.2 fun q hq => ?_
        have hq := hbefore q hq
        simp only [decide_eq_true_eq]
        omega
      have hpos : 0 < (after.filter fun s => s.id < n).length :=
        List.length_pos_of_mem (List.mem_filter.2 ⟨hsa, decide_eq_true hsn⟩)
      rw [hall] at hlen
      omega
  · intro hstay
    have hb : ∀ s ∈ before, s.id < n := fun s hs => by
      by_contra hge
      have hne := hfree s (by simp [hs])
      exact hstay ⟨s, by simp [hs], .inl ⟨hbefore s hs, by omega⟩⟩
    have ha : ∀ s ∈ after, n < s.id := fun s hs => by
      by_contra hge
      have hne := hfree s (by simp [hs])
      exact hstay ⟨s, by simp [hs], .inr ⟨hafter s hs, by omega⟩⟩
    have hlow : ((before ++ after).filter fun s => s.id < n) = before := by
      rw [List.filter_append, List.filter_eq_self.2 fun s hs => decide_eq_true (hb s hs),
        List.filter_eq_nil_iff.2 fun s hs => by have := ha s hs; simp only [decide_eq_true_eq]; omega, List.append_nil]
    have hhigh : ((before ++ after).filter fun s => n < s.id) = after := by
      rw [List.filter_append, List.filter_eq_self.2 fun s hs => decide_eq_true (ha s hs),
        List.filter_eq_nil_iff.2 fun s hs => by have := hb s hs; simp only [decide_eq_true_eq]; omega, List.nil_append]
    rw [hlow, hhigh]
    have hcontent : ({ r with id := n } : AnchorRow).toAnchorContent = r.toAnchorContent := rfl
    exact (intact_same_iff h hcontent).2 ⟨rfl, rfl⟩

end Detection

/-! ### What is detected -/

variable {log : List AnchorRow} {r : AnchorRow}

/-- **What is detected**, in a store in order. -/
theorem change_detected_iff (h : AnchorInv log) (hr : r ∈ log) {c : Change} (hne : c.apply r ≠ r)
    (hfree : ∀ s ∈ log, s ≠ r → s.id ≠ (c.apply r).id)
    (hcf : Audit.Collisionless (hashedInputs (contents (tenantRows log r.tenantId)) ∪
      hashedInputs (contents (tenantRows (alter log r (c.apply r)) r.tenantId)))) :
    ¬ ChainValid (alter log r (c.apply r)) r.tenantId ↔ c.Visible log r := by
  rw [chainValid_iff]
  obtain ⟨pre, post, rfl, halter⟩ := alter_split h.ids hr (c.apply r)
  obtain ⟨before, hbefore⟩ : ∃ before, before = pre.filter fun s => s.tenantId = r.tenantId := ⟨_, rfl⟩
  obtain ⟨after, hafter⟩ : ∃ after, after = post.filter fun s => s.tenantId = r.tenantId := ⟨_, rfl⟩
  have hrows : tenantRows (pre ++ r :: post) r.tenantId = before ++ r :: after := by
    rw [tenantRows, selectAsc_eq h.ids, List.filter_append, List.filter_cons_of_pos (by simp), hbefore, hafter]
  have hintact := h.intact r.tenantId
  have hids : Ascending AnchorRow.id (before ++ r :: after) := by
    rw [← hrows, tenantRows, selectAsc_eq h.ids]
    exact h.ids.filter _
  -- a row with the same id stands in the same place
  have hsame : ∀ r' : AnchorRow, r'.id = r.id → tenantRows (pre ++ r' :: post) r.tenantId =
      before ++ ((if r'.tenantId = r.tenantId then [r'] else []) ++ after) := by
    intro r' hid
    rw [tenantRows, selectAsc_alter_same h.ids hid, hbefore, hafter]
    simp only [decide_eq_true_eq]
  rw [halter] at hcf ⊢
  rw [hrows] at hcf hintact
  -- other hashed columns, and other hashes
  have hcontent : ∀ r' : AnchorRow, r'.id = r.id → r'.tenantId = r.tenantId → r'.rowHash = r.rowHash →
      r'.toAnchorContent ≠ r.toAnchorContent →
      Audit.Collisionless (hashedInputs (contents (before ++ r :: after)) ∪
        hashedInputs (contents (tenantRows (pre ++ r' :: post) r.tenantId))) →
      ¬ Intact Audit.genesisDigest (tenantRows (pre ++ r' :: post) r.tenantId) := by
    intro r' hid ht hrow hne hcf
    rw [hsame r' hid, if_pos ht] at hcf ⊢
    exact content_detected hintact hcf hrow hne
  have hhashes : ∀ r' : AnchorRow, r'.id = r.id → r'.toAnchorContent = r.toAnchorContent →
      (Intact Audit.genesisDigest (tenantRows (pre ++ r' :: post) r.tenantId) ↔
        r'.rowHash = r.rowHash ∧ r'.anchorChainHash = r.anchorChainHash) := by
    intro r' hid hcontent
    rw [hsame r' hid, if_pos (congrArg AnchorContent.tenantId hcontent)]
    exact intact_same_iff hintact hcontent
  have hkeep : ∀ x : AnchorContent, x = r.toAnchorContent → Change.apply r c = { r with toAnchorContent := x } → False := by
    rintro x rfl hx
    exact hne hx
  have hhashed : (c.apply r).id = r.id → (c.apply r).tenantId = r.tenantId → (c.apply r).rowHash = r.rowHash →
      (c.apply r).toAnchorContent ≠ r.toAnchorContent →
      ¬ Intact Audit.genesisDigest (tenantRows (pre ++ c.apply r :: post) r.tenantId) := fun hid ht hrow hne =>
    hcontent _ hid ht hrow hne hcf
  cases c with
  | anchorId s => exact iff_of_true (hhashed rfl rfl rfl fun hx => hkeep _ hx rfl) trivial
  | chainHash s => exact iff_of_true (hhashed rfl rfl rfl fun hx => hkeep _ hx rfl) trivial
  | anchoredAt s => exact iff_of_true (hhashed rfl rfl rfl fun hx => hkeep _ hx rfl) trivial
  | anchorSeq n => exact iff_of_true (hhashed rfl rfl rfl fun hx => hkeep _ hx rfl) trivial
  | rfc3161Json s => exact iff_of_true (hhashed rfl rfl rfl fun hx => hkeep _ hx rfl) trivial
  | anchorBackends s =>
    exact iff_of_false (not_not.2 ((hhashes (Change.apply r (.anchorBackends s)) rfl rfl).2 ⟨rfl, rfl⟩)) id
  | prevAnchorHash s =>
    exact iff_of_false (not_not.2 ((hhashes (Change.apply r (.prevAnchorHash s)) rfl rfl).2 ⟨rfl, rfl⟩)) id
  | rowHash s =>
    refine iff_of_true (fun hi => hne ?_) trivial
    have hs : s = r.rowHash := ((hhashes (Change.apply r (.rowHash s)) rfl rfl).1 hi).1
    rw [hs]
    rfl
  | anchorChainHash s =>
    refine iff_of_true (fun hi => hne ?_) trivial
    have hs : s = r.anchorChainHash := ((hhashes (Change.apply r (.anchorChainHash s)) rfl rfl).1 hi).2
    rw [hs]
    rfl
  | tenantId s =>
    have hs : s ≠ r.tenantId := fun hs => hne (by rw [hs]; rfl)
    have hgone : tenantRows (pre ++ Change.apply r (.tenantId s) :: post) r.tenantId = before ++ after := by
      have hne' : ¬ (Change.apply r (.tenantId s)).tenantId = r.tenantId := hs
      rw [hsame (Change.apply r (.tenantId s)) rfl, if_neg hne']
      rfl
    rw [hgone] at hcf ⊢
    rw [intact_without_iff hintact hcf, Change.Visible, hrows]
    obtain ⟨-, hlarger, hsmaller⟩ := List.pairwise_append.1 hids
    constructor
    · intro hafter'
      obtain ⟨q, qs, rfl⟩ := List.exists_cons_of_ne_nil hafter'
      exact ⟨q, by simp, (List.pairwise_cons.1 hlarger).1 q List.mem_cons_self⟩
    · rintro ⟨q, hq, hlt⟩ rfl
      rw [List.mem_append, List.mem_singleton] at hq
      rcases hq with hq | rfl
      · exact absurd (hsmaller q hq r List.mem_cons_self) (not_lt.2 (le_of_lt hlt))
      · exact lt_irrefl _ hlt
  | id n =>
    have hother : ∀ q ∈ before ++ after, q.id ≠ n := by
      intro q hq
      have hnodup : q.id ≠ r.id := by
        obtain ⟨-, hlarger, hsmaller⟩ := List.pairwise_append.1 hids
        rcases List.mem_append.1 hq with hq | hq
        · exact ne_of_lt (hsmaller q hq r List.mem_cons_self)
        · exact ne_of_gt ((List.pairwise_cons.1 hlarger).1 q hq)
      have hmem : q ∈ pre ++ r :: post := by
        rw [hbefore, hafter, List.mem_append, List.mem_filter, List.mem_filter] at hq
        rcases hq with hq | hq
        · exact List.mem_append_left _ hq.1
        · exact List.mem_append_right _ (List.mem_cons_of_mem _ hq.1)
      exact hfree q hmem fun hqr => hnodup (by rw [hqr])
    have hmoved : tenantRows (pre ++ Change.apply r (.id n) :: post) r.tenantId =
        ((before ++ after).filter fun s => s.id < n) ++ { r with id := n } :: (before ++ after).filter fun s => n < s.id := by
      rw [hbefore, hafter] at hother ⊢
      exact selectAsc_alter_moved h.ids (decide_eq_true rfl) hother
    rw [intact_moved_iff hintact hids hother hmoved hcf, not_not, Change.Visible, hrows]

/-- **What the anchor store detects**: after calls of `anchor` one after the other, one column of one row is changed. -/
theorem anchor_change_detected_iff (calls : List AnchorCall) (r : AnchorRow) (hr : r ∈ anchorAll [] calls) (c : Change)
    (hne : c.apply r ≠ r) (hfree : ∀ s ∈ anchorAll [] calls, s ≠ r → s.id ≠ (c.apply r).id)
    (hcf : Audit.Collisionless (hashedInputs (contents (tenantRows (anchorAll [] calls) r.tenantId)) ∪
      hashedInputs (contents (tenantRows (alter (anchorAll [] calls) r (c.apply r)) r.tenantId)))) :
    ¬ ChainValid (alter (anchorAll [] calls) r (c.apply r)) r.tenantId ↔ c.Visible (anchorAll [] calls) r :=
  change_detected_iff (anchorAll_inv calls .nil) hr hne hfree hcf

/-! ### One anchor -/

/-- An anchor of an empty log, without a timestamp. -/
def emptyLogCall : AnchorCall := ⟨"anchor_0", "2026-01-01T00:00:00Z", "acme", genesisHash, none, false⟩

/-- The row it leaves. -/
def emptyLogRow : AnchorRow where
  toAnchorContent := emptyLogCall.content 1
  anchorBackends := emptyLogCall.backendsJson
  rowHash := computeAnchorRowHash (emptyLogCall.content 1)
  prevAnchorHash := toHex Audit.genesisDigest
  anchorChainHash := toHex (linkDigest Audit.genesisDigest (emptyLogCall.content 1))
  id := 1

theorem anchorAll_emptyLogCall : anchorAll [] [emptyLogCall] = [emptyLogRow] := by
  have hprev : prevAnchorHash [] "acme" = toHex Audit.genesisDigest := AnchorInv.nil.prevAnchorHash_eq "acme"
  have hnext : nextAnchorSeq [] "acme" = 1 := rfl
  have hanchor : anchor [] emptyLogCall = .ok (emptyLogRow.toAnchorEntry, [emptyLogRow]) := by
    rw [anchor, show emptyLogCall.tenantId = "acme" from rfl, hprev, hnext, entry_hex]
    rfl
  rw [anchorAll, List.foldl_cons, List.foldl_nil, anchorNext, hanchor]

/-- **Other backends go unnoticed.** -/
theorem backends_undetected : ∃ r ∈ anchorAll [] [emptyLogCall], ∃ c : Change, c.apply r ≠ r ∧
    ChainValid (alter (anchorAll [] [emptyLogCall]) r (c.apply r)) r.tenantId := by
  rw [anchorAll_emptyLogCall]
  refine ⟨emptyLogRow, List.mem_singleton_self _, .anchorBackends "[]", fun h => ?_, ?_⟩
  · have hb : "[]" = emptyLogCall.backendsJson := congrArg (fun r : AnchorRow => r.anchorBackends) h
    exact absurd hb (by decide)
  · rw [chainValid_iff]
    have hrows : tenantRows (alter [emptyLogRow] emptyLogRow (Change.apply emptyLogRow (.anchorBackends "[]")))
        emptyLogRow.tenantId = [Change.apply emptyLogRow (.anchorBackends "[]")] := by
      simp [alter, tenantRows, Autoincrement.selectAsc, Change.apply]
    rw [hrows]
    exact ⟨⟨rfl, rfl⟩, trivial⟩

/-- Its row hash, as bytes. -/
def emptyLogDigest : Bytes :=
  [0x4c, 0x5e, 0xde, 0x37, 0xec, 0xca, 0x89, 0x00, 0xeb, 0xb9, 0x5e, 0x7a, 0x29, 0x93, 0x86, 0x18,
   0x5e, 0x53, 0xf6, 0xd0, 0x90, 0x4b, 0x7c, 0xff, 0x0f, 0x81, 0xdb, 0x6c, 0x44, 0xc9, 0xab, 0x52]

theorem emptyLogCall_digest : (emptyLogCall.content 1).digest = emptyLogDigest := by
  rw [AnchorContent.digest, KeyRegistry.dumpsAscii_eq_dumps (by decide +kernel)]
  exact sha256_dumps (by decide +kernel)

/-- Its chain hash begins with another byte. -/
theorem emptyLogCall_link : (linkDigest Audit.genesisDigest (emptyLogCall.content 1)).head? = some 0x18 := by
  rw [linkDigest, emptyLogCall_digest]
  decide +kernel

/-- A row hash that is taken away is missed. -/
theorem rowHash_detected : ∃ r ∈ anchorAll [] [emptyLogCall],
    ¬ ChainValid (alter (anchorAll [] [emptyLogCall]) r (Change.apply r (.rowHash ""))) r.tenantId := by
  have hmem : emptyLogRow ∈ anchorAll [] [emptyLogCall] := by
    rw [anchorAll_emptyLogCall]
    exact List.mem_singleton_self _
  have hrow : emptyLogRow.rowHash = toHex emptyLogDigest := by
    rw [← emptyLogCall_digest]
    rfl
  have hne : Change.apply emptyLogRow (.rowHash "") ≠ emptyLogRow := by
    intro h
    have hempty : "" = toHex emptyLogDigest := (congrArg (fun r : AnchorRow => r.rowHash) h).trans hrow
    exact absurd (congrArg String.length hempty) (by decide)
  refine ⟨emptyLogRow, hmem, (anchor_change_detected_iff [emptyLogCall] emptyLogRow hmem (.rowHash "") hne ?_ ?_).2 trivial⟩
  · intro s hs hsr
    rw [anchorAll_emptyLogCall] at hs
    exact absurd (List.mem_singleton.1 hs) hsr
  · have hrows : tenantRows [emptyLogRow] emptyLogRow.tenantId = [emptyLogRow] := by
      simp [tenantRows, Autoincrement.selectAsc]
    have hcopy : tenantRows (alter [emptyLogRow] emptyLogRow (Change.apply emptyLogRow (.rowHash "")))
        emptyLogRow.tenantId = [Change.apply emptyLogRow (.rowHash "")] := by
      simp [alter, tenantRows, Autoincrement.selectAsc, Change.apply]
    have hinputs : hashedInputs [emptyLogCall.content 1] =
        {utf8 (KeyRegistry.dumpsAscii (emptyLogCall.content 1).toJson),
          Audit.genesisDigest ++ (emptyLogCall.content 1).digest} := by
      ext b
      simp [hashedInputs, steps, or_comm]
    have hdigest : sha256 (utf8 (KeyRegistry.dumpsAscii (emptyLogCall.content 1).toJson)) = emptyLogDigest :=
      emptyLogCall_digest
    have hlink : (sha256 (Audit.genesisDigest ++ (emptyLogCall.content 1).digest)).head? = some 0x18 := emptyLogCall_link
    rw [anchorAll_emptyLogCall, hrows, hcopy]
    have hself : contents [Change.apply emptyLogRow (.rowHash "")] = [emptyLogCall.content 1] := rfl
    have hlog : contents [emptyLogRow] = [emptyLogCall.content 1] := rfl
    rw [hself, hlog, Set.union_self, hinputs]
    refine Audit.Collisionless.pair ?_ ?_ ?_
    · intro h
      rw [← h, hdigest] at hlink
      exact absurd hlink (by decide)
    · rw [hdigest]
      decide
    · intro h
      rw [h] at hlink
      exact absurd hlink (by decide)

end Anchor
end ProvableAi
