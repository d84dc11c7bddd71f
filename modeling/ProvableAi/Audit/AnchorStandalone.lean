/-
# The standalone anchor verifier

`verify_anchor_chain` in `verify/verify_anchor.py` reads the database of the anchor
store "with ZERO dependency on Zorynex infrastructure": it has a walk of its own,
which names the first broken row, tells a changed row from a broken link and
returns the last chain hash.

`standalone_diagnosis` says what it reports of any table, and that the store's own
walk reports the same row.  `receipt_commits` is what the two give together: the
record that a call of `anchor` returned fixes the tenant's rows up to its own, in
every table that the standalone verifier accepts.
-/

import ProvableAi.Audit.AnchorTamper

namespace ProvableAi
namespace Anchor

open HashChain

/-- What the standalone `verify_anchor_chain` returns. -/
structure StandaloneResult where
  valid : Bool
  totalRows : ℕ
  brokenAtId : Option ℤ
  failure : Option String
  finalHash : Option String
  message : Option String

/-- The failure of a row whose own hash is wrong. -/
def modifiedFailure (id : ℤ) : String :=
  "Row id=" ++ toString id ++ ": row_hash mismatch (content was modified)"

/-- The failure of a row whose chain hash is wrong. -/
def linkFailure (id : ℤ) : String :=
  "Row id=" ++ toString id ++ ": chain broken (row was inserted or deleted)"

/-- The loop of the standalone `verify_anchor_chain`; `total` is the number of rows. -/
def standaloneRows (total : ℕ) : String → List AnchorRow → Except PyErr StandaloneResult
  | prevHash, [] =>
    .ok ⟨true, total, none, none, some prevHash, some ("Anchor chain intact (" ++ toString total ++ " rows)")⟩
  | prevHash, row :: rest => do
    let expectedRowHash := computeAnchorRowHash row.toAnchorContent
    let expectedChain ← Audit.computeChainHash prevHash expectedRowHash
    if row.rowHash ≠ expectedRowHash then
      .ok ⟨false, total, some row.id, some (modifiedFailure row.id), none, none⟩
    else if row.anchorChainHash ≠ expectedChain then
      .ok ⟨false, total, some row.id, some (linkFailure row.id), none, none⟩
    else standaloneRows total row.anchorChainHash rest

/-- The standalone `verify_anchor_chain`; there is no table where the file is missing. -/
def verifyAnchorDb (dbPath : String) (table : Option (List AnchorRow)) (tenantId : String) :
    Except PyErr StandaloneResult :=
  match table with
  | none => .ok ⟨false, 0, none, some ("Anchor DB not found: " ++ dbPath), none, none⟩
  | some table =>
    let rows := tenantRows table tenantId
    if rows = [] then .ok ⟨true, 0, none, none, none, some "No anchors found for this tenant"⟩
    else standaloneRows rows.length anchorGenesis rows

/-! ### What it reports -/

/-- The row is the first one that is broken, and how: its own hash is not that of its
columns, or else its chain hash does not continue the chain. -/
structure FirstBroken (rows : List AnchorRow) (row : AnchorRow) (failure : String) : Prop where
  split : ∃ before after, rows = before ++ row :: after ∧ Intact Audit.genesisDigest before ∧
    ((failure = modifiedFailure row.id ∧ row.rowHash ≠ computeAnchorRowHash row.toAnchorContent) ∨
      (failure = linkFailure row.id ∧ row.rowHash = computeAnchorRowHash row.toAnchorContent ∧
        row.anchorChainHash ≠ toHex ((contents (before ++ [row])).foldl linkDigest Audit.genesisDigest)))

/-- The two walks from the chain hash of the rows `before`. -/
theorem standaloneRows_cases (total : ℕ) (rows : List AnchorRow) : ∀ before : List AnchorRow,
    Intact Audit.genesisDigest before →
    (Intact Audit.genesisDigest (before ++ rows) ∧
      (∃ message, standaloneRows total (toHex ((contents before).foldl linkDigest Audit.genesisDigest)) rows =
        .ok ⟨true, total, none, none,
          some (toHex ((contents (before ++ rows)).foldl linkDigest Audit.genesisDigest)), some message⟩) ∧
      verifyRows total (toHex ((contents before).foldl linkDigest Audit.genesisDigest)) rows =
        .ok ⟨true, total, none, none⟩) ∨
    ∃ row failure message, FirstBroken (before ++ rows) row failure ∧
      standaloneRows total (toHex ((contents before).foldl linkDigest Audit.genesisDigest)) rows =
        .ok ⟨false, total, some row.id, some failure, none, none⟩ ∧
      verifyRows total (toHex ((contents before).foldl linkDigest Audit.genesisDigest)) rows =
        .ok ⟨false, total, some row.id, some message⟩ := by
  induction rows with
  | nil =>
    intro before hbefore
    rw [List.append_nil]
    exact .inl ⟨hbefore, ⟨_, rfl⟩, rfl⟩
  | cons row rest ih =>
    intro before hbefore
    have hcontents : contents (before ++ [row]) = contents before ++ [row.toAnchorContent] := by
      simp [contents]
    have hlink : linkDigest ((contents before).foldl linkDigest Audit.genesisDigest) row.toAnchorContent =
        (contents (before ++ [row])).foldl linkDigest Audit.genesisDigest := by
      rw [hcontents, List.foldl_append, List.foldl_cons, List.foldl_nil]
    rw [standaloneRows, verifyRows, computeChainHash_hex, ok_bind, ok_bind, hlink]
    by_cases hrow : row.rowHash = computeAnchorRowHash row.toAnchorContent
    · by_cases hchain : row.anchorChainHash =
          toHex ((contents (before ++ [row])).foldl linkDigest Audit.genesisDigest)
      · -- the row is intact, and the walks go on from its chain hash
        have hnext : Intact Audit.genesisDigest (before ++ [row]) :=
          sealed_append.2 ⟨hbefore, ⟨hrow, hchain.trans (congrArg toHex hlink.symm)⟩, trivial⟩
        have hrest := ih (before ++ [row]) hnext
        rw [List.append_assoc, List.singleton_append] at hrest
        rw [if_neg (not_not.2 hrow), if_neg (not_not.2 hchain),
          if_neg (not_or.2 ⟨not_not.2 hrow, not_not.2 hchain⟩), hchain]
        exact hrest
      · rw [if_neg (not_not.2 hrow), if_pos hchain, if_pos (.inr hchain)]
        exact .inr ⟨row, _, _, ⟨before, rest, rfl, hbefore, .inr ⟨rfl, hrow, hchain⟩⟩, rfl, rfl⟩
    · rw [if_pos hrow, if_pos (.inl hrow)]
      exact .inr ⟨row, _, _, ⟨before, rest, rfl, hbefore, .inl ⟨rfl, hrow⟩⟩, rfl, rfl⟩

/-- What is accepted is intact. -/
theorem standalone_valid_iff {dbPath : String} {table : List AnchorRow} {t : String} :
    (∃ res, verifyAnchorDb dbPath (some table) t = .ok res ∧ res.valid = true) ↔
      Intact Audit.genesisDigest (tenantRows table t) := by
  rw [verifyAnchorDb]
  by_cases hempty : tenantRows table t = []
  · rw [hempty]
    exact iff_of_true ⟨_, rfl, rfl⟩ trivial
  simp only [if_neg hempty, anchorGenesis, Audit.genesisHash_eq]
  obtain ⟨hintact, ⟨message, hres⟩, -⟩ | ⟨_, _, _, hbroken, hres, hstore⟩ :=
    standaloneRows_cases (tenantRows table t).length (tenantRows table t) [] trivial
  · exact iff_of_true ⟨_, hres, rfl⟩ hintact
  · refine iff_of_false ?_ fun hintact => ?_
    · rintro ⟨res, hres', hvalid⟩
      obtain rfl := Except.ok.inj (hres.symm.trans hres')
      cases hvalid
    · obtain ⟨store, hstore', hvalid⟩ := @verifyRows_valid_iff (tenantRows table t).length (tenantRows table t)
        Audit.genesisDigest
      obtain rfl := Except.ok.inj (hstore.symm.trans hstore')
      exact absurd (hvalid.2 hintact) Bool.false_ne_true

/-- What a call of `anchor` that returned has left. -/
theorem AnchorInv.anchor_ok {table table' : List AnchorRow} (h : AnchorInv table) {a : AnchorCall} {entry : AnchorEntry}
    (ha : anchor table a = .ok (entry, table')) :
    ∃ before row, tenantRows table' a.tenantId = before ++ [row] ∧ row.anchorChainHash = entry.anchorChainHash ∧
      AnchorInv table' := by
  have hnext : AnchorInv table' := by
    have hkeep := h.anchorNext a
    rwa [Anchor.anchorNext, ha] at hkeep
  obtain ⟨entry', hentry, hrest⟩ := bind_eq_ok_iff.1 ha
  obtain ⟨table'', hinsert, hresult⟩ := bind_eq_ok_iff.1 hrest
  obtain ⟨rfl, rfl⟩ := Prod.mk.inj (Except.ok.inj hresult)
  obtain ⟨-, rfl⟩ := insertEntry_eq_ok.1 hinsert
  have htenant : entry'.tenantId = a.tenantId := congrArg AnchorContent.tenantId (entry_content hentry)
  refine ⟨tenantRows table a.tenantId, { entry' with id := Autoincrement.nextId AnchorRow.id table }, ?_, rfl, hnext⟩
  rw [tenantRows_concat h.ids, if_pos htenant]

/-- **The record of an anchor fixes the history.**  A call of `anchor`, after any others,
returns a record.  Whatever becomes of the database: where the standalone verifier accepts
it and a row of the tenant shows the chain hash of the record, the rows up to that one have
the hashed columns of the tenant's rows at the time of the call. -/
theorem receipt_commits (calls : List AnchorCall) {a : AnchorCall} {entry : AnchorEntry} {then_ : List AnchorRow}
    (ha : anchor (anchorAll [] calls) a = .ok (entry, then_)) {dbPath : String} {now : List AnchorRow}
    {res : StandaloneResult} (hres : verifyAnchorDb dbPath (some now) a.tenantId = .ok res) (hvalid : res.valid = true)
    {before after : List AnchorRow} {r : AnchorRow} (hrows : tenantRows now a.tenantId = before ++ r :: after)
    (hr : r.anchorChainHash = entry.anchorChainHash)
    (hcf : Audit.Collisionless (hashedInputs (contents (tenantRows now a.tenantId)) ∪
      hashedInputs (contents (tenantRows then_ a.tenantId)))) :
    contents (before ++ [r]) = contents (tenantRows then_ a.tenantId) := by
  obtain ⟨before', row, hthen, hrow, hinv⟩ := (anchorAll_inv calls .nil).anchor_ok ha
  have hintact := standalone_valid_iff.1 ⟨res, hres, hvalid⟩
  have hintact' := hinv.intact a.tenantId
  rw [hrows] at hintact hcf
  rw [hthen] at hintact' hcf ⊢
  refine Sealed.contents_fixed hintact hintact' (fun d d' hd hd' => ?_) (linkDigest_inj hcf) (fun p hp => ?_)
    fun p hp => ?_
  · exact toHex_inj.1 ((hd.2.symm.trans (hr.trans hrow.symm)).trans hd'.2)
  · exact hcf.nonzero _ (.inl (.inr ⟨p, hp, rfl⟩))
  · exact hcf.nonzero _ (.inr (.inr ⟨p, hp, rfl⟩))

/-- The first anchor's row without the two columns that are not hashed. -/
def strippedRow : AnchorRow := { emptyLogRow with anchorBackends := "[]", prevAnchorHash := "" }

theorem anchor_emptyLogCall : anchor (anchorAll [] []) emptyLogCall = .ok (emptyLogRow.toAnchorEntry, [emptyLogRow]) := by
  have hprev : prevAnchorHash [] emptyLogCall.tenantId = toHex Audit.genesisDigest := AnchorInv.nil.prevAnchorHash_eq "acme"
  have hnext : nextAnchorSeq [] emptyLogCall.tenantId = 1 := rfl
  rw [anchorAll, List.foldl_nil, anchor, hprev, hnext, entry_hex]
  rfl

theorem emptyLogCall_collisionless : Audit.Collisionless (hashedInputs [emptyLogCall.content 1]) := by
  have hinputs : hashedInputs [emptyLogCall.content 1] =
      {utf8 (KeyRegistry.dumpsAscii (emptyLogCall.content 1).toJson),
        Audit.genesisDigest ++ (emptyLogCall.content 1).digest} := by
    ext b
    simp [hashedInputs, steps, or_comm]
  have hdigest : sha256 (utf8 (KeyRegistry.dumpsAscii (emptyLogCall.content 1).toJson)) = emptyLogDigest :=
    emptyLogCall_digest
  have hlink : (sha256 (Audit.genesisDigest ++ (emptyLogCall.content 1).digest)).head? = some 0x18 := emptyLogCall_link
  rw [hinputs]
  refine Audit.Collisionless.pair (fun h => ?_) ?_ fun h => ?_
  · rw [← h, hdigest] at hlink
    exact absurd hlink (by decide)
  · rw [hdigest]
    decide
  · rw [h] at hlink
    exact absurd hlink (by decide)

/-- The record of the first anchor and the stripped row: it is accepted, and its hashed columns are those of the
record. -/
theorem strippedRow_receipt : strippedRow ≠ emptyLogRow ∧
    contents ([] ++ [strippedRow]) = contents (tenantRows [emptyLogRow] emptyLogCall.tenantId) := by
  have hrows : ∀ row : AnchorRow, row.tenantId = "acme" → tenantRows [row] emptyLogCall.tenantId = [row] := by
    intro row hrow
    simp [tenantRows, Autoincrement.selectAsc, hrow, emptyLogCall]
  have hstripped := hrows strippedRow rfl
  have hself := hrows emptyLogRow rfl
  obtain ⟨res, hres, hvalid⟩ := (@standalone_valid_iff "anchors.db" [strippedRow] emptyLogCall.tenantId).2
    (by rw [hstripped]; exact ⟨⟨rfl, rfl⟩, trivial⟩)
  refine ⟨fun h => ?_, receipt_commits [] anchor_emptyLogCall hres hvalid hstripped rfl ?_⟩
  · exact absurd (congrArg (fun r : AnchorRow => r.prevAnchorHash.length) h) (by decide)
  · rw [hstripped, hself]
    exact emptyLogCall_collisionless.mono (by simp [contents, strippedRow, emptyLogRow])

end Anchor
end ProvableAi
