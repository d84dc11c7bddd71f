/-
# The history of the active key

`was_active_at` of `audit_keyregistry.py` against what happened: which key the
last call that made a key active, up to a time, made active for a tenant.

The query reads two rows, the first active row of the key and the first row that
retires it.  Those two tell the whole story of a key that is active once.  A
rotation to a key that was active before adds a second active row, which the query
never reads: the key stays retired for it.  And a rotation that fails between its
inserts retires the key that stays active.

`wasActiveAt_faithful_iff`: after every call of a run whose clock does not go back
the query agrees with the history at every time so far, exactly if every call that
retires a key can store its successor and no rotation names a key that was active
before.
-/

import ProvableAi.Audit.KeyRegistry
import ProvableAi.Lib.Timeline

namespace ProvableAi
namespace KeyRegistry

open Lockstep Timeline

/-! ### `was_active_at` -/

/-- `SELECT * … WHERE key_id=? AND tenant_id=? AND status=? ORDER BY id ASC LIMIT 1`, on
the rows of the tenant. -/
def firstRow (rows : List KeyRow) (status : Status) (keyId : String) : Option KeyRow :=
  rows.find? fun r => r.keyId = keyId ∧ r.status = status

/-- `was_active_at` on the rows of the tenant. -/
def activeOn (rows : List KeyRow) (keyId timestamp : String) : Bool :=
  match firstRow rows .active keyId with
  | none => false
  | some activeRow =>
    if activeRow.registeredAt > timestamp then false
    else
      match firstRow rows .retired keyId with
      | none => true
      | some retiredRow =>
        match retiredRow.retiredAt with
        | none => true
        | some retiredAt => if retiredAt ≠ "" ∧ retiredAt ≤ timestamp then false else true

/-- `was_active_at`. -/
def wasActiveAt (table : List KeyRow) (keyId tenantId : PyStr) (timestamp : String) : Except PyErr Bool :=
  match encode keyId, encode tenantId with
  | .ok keyId, .ok tenantId => .ok (activeOn (tenantRows table tenantId) keyId timestamp)
  | .error e, _ => .error e
  | _, .error e => .error e

/-! ### What happened -/

/-- A key was made active. -/
structure Event where
  time : String
  tenantId : String
  keyId : String
  deriving DecidableEq

/-- The time a call reads. -/
def Call.now : Call → String
  | .registerKey now _ _ => now
  | .registerOrUpdate now _ => now
  | .rotateKey now _ _ => now

/-- The call returned, and `get_active` returns the key it returned.  A registration of
a key that was rotated out returns the old row of the key and makes nothing active. -/
def madeActive (table : List KeyRow) (call : Call) : Option Event :=
  match step table call with
  | (.ok (record, _), after) =>
    if (selectActive after record.tenantId).map (fun r => r.keyId) = some record.keyId then
      some ⟨call.now, record.tenantId, record.keyId⟩
    else none
  | (.error _, _) => none

/-- The events of a run. -/
def history : List KeyRow → List Call → List Event
  | _, [] => []
  | table, call :: calls => (madeActive table call).toList ++ history (step table call).2 calls

/-- The key that the latest event of the tenant up to `timestamp` made active. -/
def activeKey (events : List Event) (tenantId timestamp : String) : Option String :=
  (asOf (fun e => e.time) (events.filter fun e => e.tenantId = tenantId) timestamp).map fun e => e.keyId

/-- The query agrees with the history at every time up to `current`. -/
def Faithful (table : List KeyRow) (events : List Event) (current : String) : Prop :=
  ∀ (keyId tenantId : PyStr) (timestamp : String), timestamp ≤ current →
    (wasActiveAt table keyId tenantId timestamp = .ok true ↔
      ∃ k t, encode keyId = .ok k ∧ encode tenantId = .ok t ∧ activeKey events t timestamp = some k)

/-- A rotation names a key that was not active before. -/
def Fresh (table : List KeyRow) : Call → Prop
  | .registerKey _ _ _ => True
  | .registerOrUpdate _ _ => True
  | .rotateKey _ a notes => ∀ k t n, encode a.keyId = .ok k → encode a.tenantId = .ok t →
      Audit.encodable notes = .ok n → selectActiveKey table k t = none

/-- The call keeps the query faithful. -/
def Steady (table : List KeyRow) (call : Call) : Prop := Whole table call ∧ Fresh table call

/-- The clock does not go back; `strftime` gives no empty text. -/
structure Clocked (calls : List Call) : Prop where
  ordered : calls.Pairwise fun c d => c.now ≤ d.now
  nonempty : ∀ c ∈ calls, c.now ≠ ""

theorem history_concat (past : List Call) (call : Call) : ∀ table,
    history table (past ++ [call]) = history table past ++ (madeActive (final step table past) call).toList := by
  induction past with
  | nil => intro table; simp [history, final]
  | cons c past ih =>
    intro table
    rw [List.cons_append, history, history, ih, List.append_assoc]
    rfl

theorem activeKey_concat {events : List Event} {e : Event} {t T : String} : activeKey (events ++ [e]) t T =
    if e.tenantId = t ∧ e.time ≤ T then some e.keyId else activeKey events t T := by
  rw [activeKey, activeKey, List.filter_append]
  by_cases ht : e.tenantId = t
  · rw [List.filter_cons_of_pos (by simpa using ht), List.filter_nil, asOf_concat]
    by_cases hT : e.time ≤ T
    · rw [if_pos hT, if_pos ⟨ht, hT⟩, Option.map_some]
    · rw [if_neg hT, if_neg fun h => hT h.2]
  · rw [List.filter_cons_of_neg (by simpa using ht), List.filter_nil, List.append_nil, if_neg fun h => ht h.1]

/-! ### The rows of a tenant -/

section Rows

variable {rows : List KeyRow} {k T : String} {r a : KeyRow} {s : Status}

theorem firstRow_concat : firstRow (rows ++ [r]) s k =
    (firstRow rows s k).or (if r.keyId = k ∧ r.status = s then some r else none) := by
  rw [firstRow, List.find?_append, List.find?_singleton, firstRow]
  by_cases hr : r.keyId = k ∧ r.status = s
  · rw [if_pos hr, if_pos (by simpa using hr)]
  · rw [if_neg hr, if_neg (by simpa using hr)]

theorem mem_of_firstRow (h : firstRow rows s k = some r) : r ∈ rows ∧ r.keyId = k ∧ r.status = s := by
  have hp := List.find?_some h
  rw [decide_eq_true_eq] at hp
  exact ⟨List.mem_of_find?_eq_some h, hp.1, hp.2⟩

theorem firstRow_ne_none (hr : r ∈ rows) : firstRow rows r.status r.keyId ≠ none := by
  rw [firstRow, ne_eq, List.find?_eq_none]
  intro h
  exact h r hr (by simp)

theorem selectActiveKey_eq_none {table : List KeyRow} {t : String} :
    selectActiveKey table k t = none ↔ firstRow (tenantRows table t) .active k = none := by
  rw [selectActiveKey, List.getLast?_eq_none_iff, List.filter_eq_nil_iff, firstRow, List.find?_eq_none]
  simp only [decide_eq_true_eq, and_comm]

/-- The key of the last active row up to `T`. -/
def keyAt (rows : List KeyRow) (T : String) : Option String :=
  (asOf (fun r => r.registeredAt) (rows.filter fun r => r.status = .active) T).map fun r => r.keyId

theorem keyAt_concat_active (ha : a.status = .active) :
    keyAt (rows ++ [a]) T = if a.registeredAt ≤ T then some a.keyId else keyAt rows T := by
  rw [keyAt, keyAt, List.filter_append, List.filter_cons_of_pos (by simpa using ha), List.filter_nil, asOf_concat]
  split_ifs <;> rfl

theorem keyAt_concat_retired (hr : r.status = .retired) : keyAt (rows ++ [r]) T = keyAt rows T := by
  rw [keyAt, keyAt, List.filter_append, List.filter_cons_of_neg (by simp [hr]), List.filter_nil, List.append_nil]

/-- What `was_active_at` reads in the rows. -/
theorem activeOn_iff : activeOn rows k T = true ↔ ∃ a, firstRow rows .active k = some a ∧ a.registeredAt ≤ T ∧
    ∀ r τ, firstRow rows .retired k = some r → r.retiredAt = some τ → ¬ (τ ≠ "" ∧ τ ≤ T) := by
  rw [activeOn]
  cases firstRow rows .active k with
  | none => simp
  | some a =>
    simp only [gt_iff_lt, ← not_le, ite_not, Option.some.injEq, exists_eq_left']
    by_cases hT : a.registeredAt ≤ T
    · rw [if_pos hT]
      cases firstRow rows .retired k with
      | none => simp [hT]
      | some r =>
        cases hτ : r.retiredAt with
        | none =>
          simp only [hτ]
          refine iff_of_true trivial ⟨hT, ?_⟩
          rintro _ τ ⟨⟩ hτ'
          rw [hτ] at hτ'
          cases hτ'
        | some τ =>
          simp only [hτ]
          by_cases hend : τ ≠ "" ∧ τ ≤ T
          · exact iff_of_false (by rw [if_pos hend]; decide) fun h => h.2 r τ rfl hτ hend
          · refine iff_of_true (if_neg hend) ⟨hT, ?_⟩
            rintro _ τ' ⟨⟩ hτ'
            rw [← Option.some.inj (hτ.symm.trans hτ')]
            exact hend
    · exact iff_of_false (by rw [if_neg hT]; decide) fun h => hT h.1

/-- A key that some row retires is not active any more. -/
theorem activeOn_retired {now : String} (hpast : ∀ r ∈ rows, r.status = .retired → ∃ τ, r.retiredAt = some τ ∧
    τ ≠ "" ∧ τ ≤ now) (hk : firstRow rows .retired k ≠ none) (hT : now ≤ T) : activeOn rows k T = false := by
  obtain ⟨r, hr⟩ := Option.ne_none_iff_exists'.1 hk
  obtain ⟨hmem, -, hstatus⟩ := mem_of_firstRow hr
  obtain ⟨τ, hτ, hne, hle⟩ := hpast r hmem hstatus
  rw [Bool.eq_false_iff, ne_eq, activeOn_iff]
  rintro ⟨a, -, -, hafter⟩
  exact hafter r τ hr hτ ⟨hne, hle.trans hT⟩

/-- What the rows of a tenant tell by the time `now`. -/
structure Timely (rows : List KeyRow) (now : String) : Prop where
  registered : ∀ r ∈ rows, r.registeredAt ≤ now
  retired : ∀ r ∈ rows, r.status = .retired → ∃ τ, r.retiredAt = some τ ∧ τ ≠ "" ∧ τ ≤ now
  /-- The keys that are retired are those that were active, but for the last one. -/
  ended : ∀ last, rows.getLast? = some last → ∀ k,
    firstRow rows .retired k ≠ none ↔ firstRow rows .active k ≠ none ∧ k ≠ last.keyId
  faithful : ∀ k T, activeOn rows k T = true ↔ keyAt rows T = some k

theorem Timely.mono {now later : String} (h : Timely rows now) (hle : now ≤ later) : Timely rows later where
  registered r hr := (h.registered r hr).trans hle
  retired r hr hs := by
    obtain ⟨τ, hτ, hne, hnow⟩ := h.retired r hr hs
    exact ⟨τ, hτ, hne, hnow.trans hle⟩
  ended := h.ended
  faithful := h.faithful

theorem Timely.nil (now : String) : Timely [] now where
  registered _ hr := absurd hr (List.not_mem_nil)
  retired _ hr := absurd hr (List.not_mem_nil)
  ended _ h := by cases h
  faithful k T := by simp [activeOn, firstRow, keyAt]

/-- The first key of a tenant. -/
theorem Timely.first {now : String} (ha : a.status = .active) (hnow : a.registeredAt = now) : Timely [a] now where
  registered r hr := by rw [List.mem_singleton.1 hr, hnow]
  retired r hr hs := by
    rw [List.mem_singleton.1 hr, ha] at hs
    cases hs
  ended last hlast k := by
    obtain rfl : a = last := by simpa using hlast
    simp only [firstRow, List.find?_singleton, ha]
    by_cases hk : a.keyId = k
    · simp [hk]
    · simp [hk]
  faithful k T := by
    have hkey : keyAt ([] ++ [a]) T = if a.registeredAt ≤ T then some a.keyId else none := keyAt_concat_active ha
    rw [List.nil_append] at hkey
    have hretired : firstRow [a] .retired k = none := by simp [firstRow, ha]
    rw [activeOn_iff, hkey, hretired]
    by_cases hk : a.keyId = k
    · have hfirst : firstRow [a] .active k = some a := by simp [firstRow, ha, hk]
      rw [hfirst]
      by_cases hT : a.registeredAt ≤ T
      · exact iff_of_true ⟨a, rfl, hT, nofun⟩ (by rw [if_pos hT, hk])
      · refine iff_of_false ?_ (by rw [if_neg hT]; nofun)
        rintro ⟨_, ⟨⟩, hle, -⟩
        exact hT hle
    · have hfirst : firstRow [a] .active k = none := by simp [firstRow, hk]
      rw [hfirst]
      refine iff_of_false (by simp) ?_
      split_ifs
      · simpa using hk
      · nofun

/-- The row `r` retires the key of `last`. -/
structure Retires (last r : KeyRow) (now : String) : Prop where
  retires : r.status = .retired
  sameKey : r.keyId = last.keyId
  sameStart : r.registeredAt = last.registeredAt
  retiredAt : r.retiredAt = some now

/-- The row `r` retires the key of `last`, and `a` is the row of the next one. -/
structure Replaces (last r a : KeyRow) (now : String) : Prop extends Retires last r now where
  opens : a.status = .active
  start : a.registeredAt = now

section Replace

variable {last : KeyRow} {now : String}

theorem firstRow_replaced_active (h : Replaces last r a now) : firstRow (rows ++ [r] ++ [a]) .active k =
    (firstRow rows .active k).or (if a.keyId = k then some a else none) := by
  rw [firstRow_concat, firstRow_concat, if_neg (by simp [h.retires]), Option.or_none]
  simp only [h.opens, and_true]

theorem firstRow_replaced_retired (h : Replaces last r a now) : firstRow (rows ++ [r] ++ [a]) .retired k =
    (firstRow rows .retired k).or (if last.keyId = k then some r else none) := by
  rw [firstRow_concat, if_neg (by simp [h.opens]), Option.or_none, firstRow_concat]
  simp only [h.retires, h.sameKey, and_true]

theorem Retires.retired (h : Retires last r now) (ht : Timely rows now) (hne : now ≠ "") :
    ∀ r' ∈ rows ++ [r], r'.status = .retired → ∃ τ, r'.retiredAt = some τ ∧ τ ≠ "" ∧ τ ≤ now := by
  intro r' hr' hs
  rcases List.mem_append.1 hr' with hr' | hr'
  · exact ht.retired r' hr' hs
  · rw [List.mem_singleton.1 hr']
    exact ⟨now, h.retiredAt, hne, le_rfl⟩

theorem Replaces.retired_all (h : Replaces last r a now) (ht : Timely rows now) (hne : now ≠ "") :
    ∀ r' ∈ rows ++ [r] ++ [a], r'.status = .retired → ∃ τ, r'.retiredAt = some τ ∧ τ ≠ "" ∧ τ ≤ now := by
  intro r' hr' hs
  rcases List.mem_append.1 hr' with hr' | hr'
  · exact h.toRetires.retired ht hne r' hr' hs
  · rw [List.mem_singleton.1 hr', h.opens] at hs
    cases hs

theorem firstRow_last (hlast : rows.getLast? = some last) (hactive : last.status = .active) :
    firstRow rows .active last.keyId ≠ none := by
  rw [← hactive]
  exact firstRow_ne_none (List.mem_of_getLast? hlast)

/-- From `now` on only the new key is active. -/
theorem Replaces.activeOn_after (h : Replaces last r a now) (ht : Timely rows now) (hlast : rows.getLast? = some last)
    (hne : now ≠ "") (hfresh : firstRow rows .active a.keyId = none) (hkey : last.keyId ≠ a.keyId) (hT : now ≤ T) :
    activeOn (rows ++ [r] ++ [a]) k T = true ↔ a.keyId = k := by
  by_cases hak : a.keyId = k
  · subst hak
    refine iff_of_true (activeOn_iff.2 ⟨a, ?_, h.start ▸ hT, ?_⟩) rfl
    · rw [firstRow_replaced_active h, hfresh, if_pos rfl, Option.none_or]
    · have hnever : firstRow rows .retired a.keyId = none := by
        by_contra hr
        exact ((ht.ended last hlast _).1 hr).1 hfresh
      rw [firstRow_replaced_retired h, hnever, if_neg hkey]
      nofun
  · refine iff_of_false ?_ hak
    rw [Bool.not_eq_true]
    by_cases hactive : firstRow rows .active k = none
    · -- the key was never active
      rw [Bool.eq_false_iff, ne_eq, activeOn_iff, firstRow_replaced_active h, hactive, if_neg hak]
      rintro ⟨_, hnone, -⟩
      cases hnone
    · refine activeOn_retired (h.retired_all ht hne) ?_ hT
      rw [firstRow_replaced_retired h]
      by_cases hk : last.keyId = k
      · simp [hk]
      · simpa [hk] using (ht.ended last hlast k).2 ⟨hactive, Ne.symm hk⟩

/-- Before `now` nothing changes. -/
theorem Replaces.activeOn_before (h : Replaces last r a now) (ht : Timely rows now) (hlast : rows.getLast? = some last)
    (hfresh : firstRow rows .active a.keyId = none) (hT : ¬ now ≤ T) :
    activeOn (rows ++ [r] ++ [a]) k T = true ↔ activeOn rows k T = true := by
  rw [activeOn_iff, activeOn_iff, firstRow_replaced_active h, firstRow_replaced_retired h]
  by_cases hak : a.keyId = k
  · subst hak
    rw [hfresh, if_pos rfl, Option.none_or]
    refine iff_of_false ?_ (by simp)
    rintro ⟨_, ⟨⟩, hle, -⟩
    exact hT (h.start ▸ hle)
  · rw [if_neg hak, Option.or_none]
    by_cases hk : last.keyId = k
    · subst hk
      have hopen : firstRow rows .retired last.keyId = none := by
        by_contra hr
        exact ((ht.ended last hlast _).1 hr).2 rfl
      rw [hopen, if_pos rfl, Option.none_or]
      refine exists_congr fun b => and_congr_right fun _ => and_congr_right fun _ => iff_of_true ?_ (by simp)
      rintro _ τ ⟨⟩ hτ hle
      rw [← Option.some.inj (h.retiredAt.symm.trans hτ)] at hle
      exact hT hle.2
    · rw [if_neg hk, Option.or_none]

/-- **A rotation to a new key.**  The query and the history change alike: the key that
was active is retired from `now` on, and the new key is active from `now` on. -/
theorem Timely.replace (ht : Timely rows now) (hlast : rows.getLast? = some last) (hactive : last.status = .active)
    (h : Replaces last r a now) (hne : now ≠ "") (hfresh : firstRow rows .active a.keyId = none) :
    Timely (rows ++ [r] ++ [a]) now where
  registered r' hr' := by
    rcases List.mem_append.1 hr' with hr' | hr'
    · rcases List.mem_append.1 hr' with hr' | hr'
      · exact ht.registered r' hr'
      · rw [List.mem_singleton.1 hr', h.sameStart]
        exact ht.registered last (List.mem_of_getLast? hlast)
    · rw [List.mem_singleton.1 hr', h.start]
  retired := h.retired_all ht hne
  ended last' hlast' k := by
    obtain rfl : a = last' := by rwa [List.getLast?_concat, Option.some.injEq] at hlast'
    have hlastActive := firstRow_last hlast hactive
    have hold := ht.ended last hlast k
    rw [firstRow_replaced_active h, firstRow_replaced_retired h]
    by_cases hk : last.keyId = k
    · subst hk
      have hak : a.keyId ≠ last.keyId := fun hak => hlastActive (hak ▸ hfresh)
      simp [hlastActive, hak.symm]
    · by_cases hak : a.keyId = k
      · subst hak
        have : firstRow rows .retired a.keyId = none := by
          by_contra hr
          exact (hold.1 hr).1 hfresh
        simp [this, hk]
      · rw [if_neg hk, if_neg hak, Option.or_none, Option.or_none, hold]
        exact and_congr_right fun _ => iff_of_true (Ne.symm hk) (Ne.symm hak)
  faithful k T := by
    have hkey : last.keyId ≠ a.keyId := fun hkey => firstRow_last hlast hactive (hkey ▸ hfresh)
    rw [keyAt_concat_active h.opens, keyAt_concat_retired h.retires, h.start]
    by_cases hT : now ≤ T
    · rw [if_pos hT, Option.some.injEq]
      exact h.activeOn_after ht hlast hne hfresh hkey hT
    · rw [if_neg hT, ← ht.faithful]
      exact h.activeOn_before ht hlast hfresh hT

end Replace

end Rows

/-! ### What a call does -/

/-- The columns of the row that retires `old`. -/
def KeyRow.retirement (old : KeyRow) (tenantId now supersededBy : String) (notes : Option String) : KeyContent :=
  ⟨old.keyId, tenantId, old.publicKey, old.algorithm, old.source, .retired, old.registeredAt, some now,
    some supersededBy, notes⟩

/-- The columns of a key that becomes active. -/
structure Opens (c : KeyContent) (keyId tenantId now : String) : Prop where
  keyId : c.keyId = keyId
  tenantId : c.tenantId = tenantId
  status : c.status = .active
  start : c.registeredAt = now

/-- What a call can do to a table: answer and table after it, and whether the call is
steady. -/
inductive Effect (table : List KeyRow) (now : String) (steady : Prop) :
    Except PyErr (KeyRecord × Option KeyRecord) × List KeyRow → Prop
  | refused (e : PyErr) (hs : steady) : Effect table now steady (.error e, table)
  | known (existing : KeyRow) (t : String) (hmem : existing ∈ tenantRows table t) (hs : steady) :
      Effect table now steady (.ok (existing.toKeyRecord, none), table)
  | first (c : KeyContent) (k t : String) (hc : Opens c k t now) (hnone : selectActive table t = none) (hs : steady) :
      Effect table now steady (.ok ((nextRow table c).toKeyRecord, none), table ++ [nextRow table c])
  | replaced (old : KeyRow) (c : KeyContent) (k t : String) (n : Option String) (retired : Option KeyRecord)
      (hc : Opens c k t now) (hold : selectActive table t = some old)
      (hs : steady ↔ selectActiveKey table k t = none) :
      Effect table now steady
        (.ok ((nextRow (table ++ [nextRow table (old.retirement t now k n)]) c).toKeyRecord, retired),
        table ++ [nextRow table (old.retirement t now k n)] ++
          [nextRow (table ++ [nextRow table (old.retirement t now k n)]) c])
  | half (e : PyErr) (old : KeyRow) (k t : String) (n : Option String) (hold : selectActive table t = some old)
      (hs : ¬ steady) :
      Effect table now steady (.error e, table ++ [nextRow table (old.retirement t now k n)])

section Effects

variable {table : List KeyRow} {now k t : String} {a : KeyArgs} {notes : Option PyStr} {steady : Prop}

theorem opens_of_content {c : KeyContent} (hc : (a.activeRow now notes).content = .ok c) (hk : encode a.keyId = .ok k)
    (ht : encode a.tenantId = .ok t) : Opens c k t now ∧ a.Storable ∧ ∃ n, Audit.encodable notes = .ok n := by
  obtain ⟨k', t', p, g, s, n, hk', ht', hp, hg, hs, hn, rfl⟩ := activeRow_content.1 hc
  obtain rfl := Except.ok.inj (hk.symm.trans hk')
  obtain rfl := Except.ok.inj (ht.symm.trans ht')
  refine ⟨⟨rfl, rfl, rfl, rfl⟩, ⟨?_, ?_, ?_⟩, n, hn⟩
  · rw [encode_eq_ok.1 hp]; rfl
  · rw [encode_eq_ok.1 hg]; rfl
  · rw [encode_eq_ok.1 hs]; rfl

theorem content_of_storable (hk : encode a.keyId = .ok k) (ht : encode a.tenantId = .ok t) (hs : a.Storable)
    {n : Option String} (hn : Audit.encodable notes = .ok n) : ∃ c, (a.activeRow now notes).content = .ok c := by
  obtain ⟨p, hp⟩ := encode_isSome hs.publicKey
  obtain ⟨g, hg⟩ := encode_isSome hs.algorithm
  obtain ⟨s, hs⟩ := encode_isSome hs.source
  exact ⟨_, activeRow_content.2 ⟨k, t, p, g, s, n, hk, ht, hp, hg, hs, hn, rfl⟩⟩

/-- A key for a tenant that has none. -/
theorem insertRow_effect (h : Chained table) (ht : encode a.tenantId = .ok t) (hnone : selectActive table t = none)
    (hs : steady) : Effect table now steady
      ((insertRow table (a.activeRow now notes)).1.map fun r => (r, none), (insertRow table (a.activeRow now notes)).2) := by
  cases hc : (a.activeRow now notes).content with
  | error e =>
    rw [insertRow_error hc]
    exact .refused e hs
  | ok c =>
    obtain ⟨k, _, _, _, _, _, hk, -⟩ := activeRow_content.1 hc
    rw [insertRow_ok h hc]
    exact .first c k t (opens_of_content hc hk ht).1 hnone hs

/-- The two inserts of a rotation. -/
theorem replaceKey_effect (h : Chained table) (ht : encode a.tenantId = .ok t) {old : KeyRow}
    (hold : selectActive table t = some old) {retireNotes : Option PyStr}
    (hwhole : ∀ k n, encode a.keyId = .ok k → Audit.encodable retireNotes = .ok n →
      (steady ↔ (a.Storable ∧ ∃ m, Audit.encodable notes = .ok m) ∧ selectActiveKey table k t = none))
    (hrefused : (∀ k n, encode a.keyId = .ok k → Audit.encodable retireNotes ≠ .ok n) → steady)
    (answer : KeyRecord → Option KeyRecord) :
    Effect table now steady ((replaceKey table now a old retireNotes notes).1.map fun r => (r.1, answer r.2),
      (replaceKey table now a old retireNotes notes).2) := by
  rw [replaceKey]
  cases hc : (old.retiredRow now a.tenantId a.keyId retireNotes).content with
  | error e =>
    rw [insertRow_error hc]
    refine .refused e (hrefused fun k n hk hn => ?_)
    rw [retiredRow_content.2 ⟨t, k, n, ht, hk, hn, rfl⟩] at hc
    cases hc
  | ok c =>
    obtain ⟨t', k, n, ht', hk, hn, rfl⟩ := retiredRow_content.1 hc
    obtain rfl := Except.ok.inj (ht.symm.trans ht')
    rw [insertRow_ok h hc]
    simp only
    cases hd : (a.activeRow now notes).content with
    | error e =>
      rw [insertRow_error hd]
      refine .half e old k t n hold fun hsteady => ?_
      obtain ⟨⟨hstore, m, hm⟩, -⟩ := (hwhole k n hk hn).1 hsteady
      obtain ⟨d, hd'⟩ : ∃ d, (a.activeRow now notes).content = .ok d := content_of_storable hk ht hstore hm
      rw [hd] at hd'
      cases hd'
    | ok d =>
      obtain ⟨hopens, hstore⟩ := opens_of_content hd hk ht
      rw [insertRow_ok (h.insert _) hd]
      exact .replaced old d k t n _ hopens hold ((hwhole k n hk hn).trans (and_iff_right hstore))

theorem mem_of_selectActiveKey {r : KeyRow} (h : selectActiveKey table k t = some r) : r ∈ tenantRows table t :=
  List.mem_of_mem_filter (List.mem_of_getLast? h)

theorem selectActiveKey_of_none (h : selectActive table t = none) : selectActiveKey table k t = none := by
  rw [selectActive, List.getLast?_eq_none_iff, List.filter_eq_nil_iff] at h
  rw [selectActiveKey, List.getLast?_eq_none_iff, List.filter_eq_nil_iff]
  intro r hr hactive
  refine h r hr ?_
  rw [decide_eq_true_eq] at hactive ⊢
  exact hactive.1

/-- **What a call does.** -/
theorem step_effect (h : Chained table) (call : Call) :
    Effect table call.now (Steady table call) (step table call) := by
  cases call with
  | registerKey now a notes =>
    have hs : Steady table (.registerKey now a notes) := ⟨trivial, trivial⟩
    simp only [step, registerKey, Call.now]
    split
    · rename_i k t hk ht
      split
      · rename_i existing hexisting
        exact .known existing t (mem_of_selectActiveKey hexisting) hs
      · split
        · exact .refused _ hs
        · rename_i hnone
          exact insertRow_effect h ht hnone hs
    · exact .refused _ hs
    · exact .refused _ hs
  | registerOrUpdate now a =>
    simp only [step, registerOrUpdate, Call.now]
    split
    · rename_i k t hk ht
      have hsteady : selectActiveKey table k t ≠ none ∨ selectActive table t = none →
          Steady table (.registerOrUpdate now a) := by
        rintro hor
        refine ⟨fun k' t' hk' ht' hfresh hsome => ?_, trivial⟩
        obtain rfl := Except.ok.inj (hk.symm.trans hk')
        obtain rfl := Except.ok.inj (ht.symm.trans ht')
        rcases hor with hor | hor
        · exact absurd hfresh hor
        · rw [hor] at hsome
          cases hsome
      split
      · rename_i existing hexisting
        exact .known existing t (mem_of_selectActiveKey hexisting) (hsteady (.inl (by rw [hexisting]; exact Option.some_ne_none _)))
      · rename_i hfresh
        split
        · rename_i old hold
          have hne : old.keyId ≠ k := by
            rintro rfl
            exact selectActiveKey_ne_none hold hfresh
          rw [if_pos hne]
          have hnote : ∃ n, Audit.encodable autoRetired = .ok n :=
            ⟨_, by rw [autoRetired, Audit.encodable, PyStr.toString?_ofString]⟩
          have heffect : Effect table now (Steady table (.registerOrUpdate now a))
              ((replaceKey table now a old autoRetired none).1.map fun r => (r.1, none),
                (replaceKey table now a old autoRetired none).2) :=
            replaceKey_effect h ht hold ?_ ?_ fun _ => none
          · cases hres : replaceKey table now a old autoRetired none with
            | mk res after =>
              rw [hres] at heffect
              cases res <;> exact heffect
          · intro k' n hk' _
            obtain rfl := Except.ok.inj (hk.symm.trans hk')
            refine ⟨fun hs => ⟨⟨?_, none, rfl⟩, hfresh⟩, fun hs => ⟨fun _ _ _ _ _ _ => hs.1.1, trivial⟩⟩
            exact hs.1 k t hk ht hfresh (by rw [hold]; rfl)
          · intro hnever
            obtain ⟨n, hn⟩ := hnote
            exact absurd hn (hnever k n hk)
        · rename_i hnone
          exact insertRow_effect h ht hnone (hsteady (.inr hnone))
    · rename_i e he
      refine .refused e ⟨fun k t hk => ?_, trivial⟩
      rw [he] at hk
      cases hk
    · rename_i he _
      refine .refused _ ⟨fun k t _ ht => ?_, trivial⟩
      rw [he] at ht
      cases ht
  | rotateKey now a notes =>
    simp only [step, rotateKey, Call.now]
    split
    · rename_i he
      refine .refused _ ⟨fun k t n _ ht => ?_, fun k t n _ ht => ?_⟩
      · rw [he] at ht
        cases ht
      · rw [he] at ht
        cases ht
    · rename_i t ht
      split
      · rename_i old hold
        have hsome : (selectActive table t).isSome = true := by rw [hold]; rfl
        refine replaceKey_effect h ht hold (fun k n hk hn => ⟨fun hs => ⟨⟨?_, n, hn⟩, ?_⟩, fun hs => ?_⟩) ?_ some
        · exact hs.1 k t n hk ht hn hsome
        · exact hs.2 k t n hk ht hn
        · refine ⟨fun _ _ _ _ _ _ _ => hs.1.1, fun k' t' n' hk' ht' _ => ?_⟩
          obtain rfl := Except.ok.inj (hk.symm.trans hk')
          obtain rfl := Except.ok.inj (ht.symm.trans ht')
          exact hs.2
        · intro hnever
          exact ⟨fun k _ n hk _ hn => absurd hn (hnever k n hk), fun k _ n hk _ hn => absurd hn (hnever k n hk)⟩
      · rename_i hnone
        refine insertRow_effect h ht hnone ⟨fun k t' n _ ht' _ hsome => ?_, fun k t' n _ ht' _ => ?_⟩
        · obtain rfl := Except.ok.inj (ht.symm.trans ht')
          rw [hnone] at hsome
          cases hsome
        · obtain rfl := Except.ok.inj (ht.symm.trans ht')
          exact selectActiveKey_of_none hnone

end Effects

/-! ### Runs -/

/-- What steady calls keep: the rows tell what happened. -/
structure Inv (table : List KeyRow) (events : List Event) (now : String) : Prop where
  reg : RegInv table
  rows : ∀ t, Timely (tenantRows table t) now
  told : ∀ t T, activeKey events t T = keyAt (tenantRows table t) T

theorem Inv.nil (now : String) : Inv [] [] now := ⟨RegInv.nil, fun _ => Timely.nil now, fun _ _ => rfl⟩

theorem Inv.mono {table : List KeyRow} {events : List Event} {now later : String} (h : Inv table events now)
    (hle : now ≤ later) : Inv table events later := ⟨h.reg, fun t => (h.rows t).mono hle, h.told⟩

theorem wasActiveAt_eq_true {table : List KeyRow} {keyId tenantId : PyStr} {timestamp : String} :
    wasActiveAt table keyId tenantId timestamp = .ok true ↔
      ∃ k t, encode keyId = .ok k ∧ encode tenantId = .ok t ∧ activeOn (tenantRows table t) k timestamp = true := by
  rw [wasActiveAt]
  cases encode keyId with
  | error e => simp
  | ok k => cases encode tenantId <;> simp

theorem Inv.faithful {table : List KeyRow} {events : List Event} {now : String} (h : Inv table events now)
    (current : String) : Faithful table events current := by
  intro keyId tenantId timestamp _
  rw [wasActiveAt_eq_true]
  simp only [(h.rows _).faithful, h.told]

/-- A key that the rows retire, and the history does not. -/
theorem not_faithful {table : List KeyRow} {events : List Event} {k t now : String}
    (hrows : activeOn (tenantRows table t) k now = false) (hkey : activeKey events t now = some k) :
    ¬ Faithful table events now := by
  intro h
  have hiff := h (.ofString k) (.ofString t) now le_rfl
  simp only [wasActiveAt, encode_ofString, Except.ok.injEq, hrows, exists_and_left, exists_eq_left'] at hiff
  exact absurd (hiff.2 hkey) (by decide)

section Step

variable {table : List KeyRow} {events : List Event} {call : Call}

theorem madeActive_error {e : PyErr} {after : List KeyRow} (h : step table call = (.error e, after)) :
    madeActive table call = none := by
  rw [madeActive, h]

theorem madeActive_ok {record : KeyRecord} {x : Option KeyRecord} {after : List KeyRow}
    (h : step table call = (.ok (record, x), after)) : madeActive table call =
      if (selectActive after record.tenantId).map (fun r => r.keyId) = some record.keyId then
        some ⟨call.now, record.tenantId, record.keyId⟩ else none := by
  rw [madeActive, h]

theorem mem_tenantRows {r : KeyRow} {t : String} : r ∈ tenantRows table t ↔ r ∈ table ∧ r.tenantId = t := by
  rw [tenantRows, Autoincrement.selectAsc, (List.perm_insertionSort _ _).mem_iff, List.mem_filter, decide_eq_true_eq]

theorem selectActive_concat (h : Chained table) {c : KeyContent} {k t now : String} (hc : Opens c k t now) :
    selectActive (table ++ [nextRow table c]) t = some (nextRow table c) := by
  have hactive : (nextRow table c).status = .active := hc.status
  rw [selectActive, tenantRows_insert h, if_pos hc.tenantId, List.filter_append,
    List.filter_cons_of_pos (by simpa using hactive), List.filter_nil, List.getLast?_concat]

/-- The event of a call that adds the row of `c` last. -/
theorem madeActive_opens (h : Chained table) {before : List KeyRow} {c : KeyContent} {k t : String} (hc : Opens c k t call.now)
    {x : Option KeyRecord} (hstep : step before call = (.ok ((nextRow table c).toKeyRecord, x), table ++ [nextRow table c])) :
    madeActive before call = some ⟨call.now, t, k⟩ := by
  have htenant : (nextRow table c).tenantId = t := hc.tenantId
  have hkey : (nextRow table c).keyId = k := hc.keyId
  rw [madeActive_ok hstep, htenant, selectActive_concat h hc, Option.map_some, hkey, if_pos rfl]

/-- The last active row of the tenant is in force from `now` on. -/
theorem keyAt_of_last {rows : List KeyRow} {last : KeyRow} {now T : String} (h : Timely rows now) (hlast : rows.getLast? = some last)
    (hactive : last.status = .active) (hT : now ≤ T) : keyAt rows T = some last.keyId := by
  obtain ⟨init, rfl⟩ := List.getLast?_eq_some_iff.1 hlast
  rw [keyAt_concat_active hactive, if_pos ((h.registered last (by simp)).trans hT)]

/-- The rows after a rotation. -/
theorem tenantRows_replace (h : Chained table) {r c : KeyContent} {t : String} (hr : r.tenantId = t) (hc : c.tenantId = t)
    (t' : String) : tenantRows (table ++ [nextRow table r] ++ [nextRow (table ++ [nextRow table r]) c]) t' =
      if t = t' then tenantRows table t ++ [nextRow table r] ++ [nextRow (table ++ [nextRow table r]) c]
      else tenantRows table t' := by
  rw [tenantRows_insert (h.insert r), tenantRows_insert h, hr, hc]
  split_ifs with ht
  · rw [ht]
  · rfl

theorem retirement_retires {old : KeyRow} {t now k : String} {n : Option String} :
    Retires old (nextRow table (old.retirement t now k n)) now := ⟨rfl, rfl, rfl, rfl⟩

theorem retirement_replaces {old : KeyRow} {t now k : String} {n : Option String} {c : KeyContent} {table' : List KeyRow}
    (hc : Opens c k t now) : Replaces old (nextRow table (old.retirement t now k n)) (nextRow table' c) now :=
  ⟨retirement_retires, hc.status, hc.start⟩

theorem Inv.last {now : String} (h : Inv table events now) {t : String} {old : KeyRow} (hold : selectActive table t = some old) :
    (tenantRows table t).getLast? = some old ∧ old.status = .active := by
  rw [h.reg.selectActive_eq] at hold
  exact ⟨hold, ((h.reg.shape t).last hold).1⟩

/-- The rows of one tenant grow, and its key changes at `now`. -/
theorem Inv.grow {now : String} (h : Inv table events now) {after rows : List KeyRow} {t k : String} (hreg : RegInv after)
    (hafter : ∀ t', tenantRows after t' = if t = t' then rows else tenantRows table t') (hrows : Timely rows now)
    (hkey : ∀ T, keyAt rows T = if now ≤ T then some k else keyAt (tenantRows table t) T) :
    Inv after (events ++ [⟨now, t, k⟩]) now where
  reg := hreg
  rows t' := by
    rw [hafter]
    split_ifs
    · exact hrows
    · exact h.rows t'
  told t' T := by
    rw [activeKey_concat, h.told, hafter]
    by_cases ht : t = t'
    · subst ht
      simp only [true_and, if_true, hkey]
    · rw [if_neg fun hT => ht hT.1, if_neg ht]

/-- **A steady call** keeps the invariant. -/
theorem Inv.step (h : Inv table events call.now) (hne : call.now ≠ "") (hs : Steady table call) :
    Inv (step table call).2 (events ++ (madeActive table call).toList) call.now := by
  have hreg := (h.reg.step hs.1).1
  have heffect := step_effect h.reg.chained call
  generalize hres : KeyRegistry.step table call = res at heffect hreg ⊢
  cases heffect with
  | refused e _ =>
    rw [madeActive_error hres, Option.toList_none, List.append_nil]
    exact h
  | known existing t hmem _ =>
    refine ⟨hreg, h.rows, fun t' T => ?_⟩
    rw [madeActive_ok hres, (mem_tenantRows.1 hmem).2]
    split_ifs with hcurrent
    · obtain ⟨last, hlast, hkey⟩ := Option.map_eq_some_iff.1 hcurrent
      obtain ⟨hlast, hactive⟩ := h.last hlast
      rw [Option.toList_some, activeKey_concat, h.told]
      split_ifs with hT
      · obtain ⟨rfl, hT⟩ := hT
        rw [keyAt_of_last (h.rows t) hlast hactive hT, hkey]
      · rfl
    · rw [Option.toList_none, List.append_nil, h.told]
  | first c k t hc hnone _ =>
    have hnil : tenantRows table t = [] := by
      rwa [h.reg.selectActive_eq, List.getLast?_eq_none_iff] at hnone
    have hactive : (nextRow table c).status = .active := hc.status
    have hstart : (nextRow table c).registeredAt = call.now := hc.start
    have hkey : (nextRow table c).keyId = k := hc.keyId
    rw [madeActive_opens h.reg.chained hc hres]
    have hrows : Timely ([] ++ [nextRow table c]) call.now := Timely.first hactive hstart
    refine h.grow hreg (fun t' => ?_) hrows fun T => ?_
    · rw [tenantRows_insert h.reg.chained, hc.tenantId]
      split_ifs with ht
      · rw [← ht, hnil]
      · rfl
    · rw [keyAt_concat_active hactive, hstart, hkey, hnil]
  | replaced old c k t n retired hc hold hiff =>
    obtain ⟨hlast, hactive⟩ := h.last hold
    have hr : Replaces old (nextRow table (old.retirement t call.now k n))
        (nextRow (table ++ [nextRow table (old.retirement t call.now k n)]) c) call.now := retirement_replaces hc
    have hkey : (nextRow (table ++ [nextRow table (old.retirement t call.now k n)]) c).keyId = k := hc.keyId
    have hfresh := selectActiveKey_eq_none.1 (hiff.1 hs)
    rw [madeActive_opens (h.reg.chained.insert _) hc hres]
    refine h.grow hreg (tenantRows_replace h.reg.chained rfl hc.tenantId) ?_ fun T => ?_
    · exact (h.rows t).replace hlast hactive hr hne (hkey ▸ hfresh)
    · rw [keyAt_concat_active hr.opens, keyAt_concat_retired hr.retires, hr.start, hkey]
  | half e old k t n hold hnot => exact absurd hs hnot

/-- **A call that is not** retires a key that the history has active. -/
theorem Inv.step_harm (h : Inv table events call.now) (hne : call.now ≠ "") (hs : ¬ Steady table call) :
    ¬ Faithful (KeyRegistry.step table call).2 (events ++ (madeActive table call).toList) call.now := by
  have heffect := step_effect h.reg.chained call
  generalize hres : KeyRegistry.step table call = res at heffect ⊢
  cases heffect with
  | refused e hs' => exact absurd hs' hs
  | known existing t hmem hs' => exact absurd hs' hs
  | first c k t hc hnone hs' => exact absurd hs' hs
  | replaced old c k t n retired hc hold hiff =>
    obtain ⟨hlast, hactive⟩ := h.last hold
    have hr : Replaces old (nextRow table (old.retirement t call.now k n))
        (nextRow (table ++ [nextRow table (old.retirement t call.now k n)]) c) call.now := retirement_replaces hc
    rw [hiff, selectActiveKey_eq_none] at hs
    rw [madeActive_opens (h.reg.chained.insert _) hc hres, Option.toList_some]
    refine not_faithful (k := k) (t := t) ?_ (by rw [activeKey_concat, if_pos ⟨rfl, le_rfl⟩])
    rw [tenantRows_replace (t := t) h.reg.chained rfl hc.tenantId, if_pos rfl]
    refine activeOn_retired (hr.retired_all (h.rows t) hne) ?_ le_rfl
    rw [firstRow_replaced_retired hr]
    by_cases hk : old.keyId = k
    · simp [hk]
    · simpa [hk] using ((h.rows t).ended old hlast k).2 ⟨hs, Ne.symm hk⟩
  | half e old k t n hold _ =>
    obtain ⟨hlast, hactive⟩ := h.last hold
    have hr : Retires old (nextRow table (old.retirement t call.now k n)) call.now := retirement_retires
    rw [madeActive_error hres, Option.toList_none, List.append_nil]
    refine not_faithful (k := old.keyId) (t := t) ?_ ?_
    · rw [tenantRows_insert h.reg.chained, if_pos (show (old.retirement t call.now k n).tenantId = t from rfl)]
      refine activeOn_retired (hr.retired (h.rows t) hne) ?_ le_rfl
      rw [firstRow_concat, if_pos ⟨hr.sameKey, hr.retires⟩]
      simp
    · rw [h.told, keyAt_of_last (h.rows t) hlast hactive le_rfl]

end Step

/-- The invariant after a steady run. -/
theorem inv_of_along {calls : List Call} (hclock : Clocked calls) (hsteady : Along step Steady [] calls) {now : String}
    (hnow : ∀ c ∈ calls, c.now ≤ now) : Inv (final step [] calls) (history [] calls) now := by
  induction calls using List.reverseRecOn generalizing now with
  | nil => exact Inv.nil now
  | append_singleton past call ih =>
    obtain ⟨hpast, hcall, -⟩ := Along.append.1 hsteady
    obtain ⟨hordered, -, hbefore⟩ := List.pairwise_append.1 hclock.ordered
    have h := ih ⟨hordered, fun c hc => hclock.nonempty c (List.mem_append_left _ hc)⟩ hpast
      fun c hc => hbefore c hc call (List.mem_singleton_self call)
    rw [final_concat, history_concat]
    exact (h.step (hclock.nonempty call (by simp)) hcall).mono (hnow call (by simp))

/-- **`was_active_at` over whole runs.**  After every call of a run whose clock does not
go back, and at every time since, the query agrees with the history, exactly if every
call that retires a key can store its successor and no rotation names a key that was
active before. -/
theorem wasActiveAt_faithful_iff (calls : List Call) (hclock : Clocked calls) :
    (∀ past, past <+: calls → ∀ current, (∀ c ∈ past, c.now ≤ current) →
      Faithful (final step [] past) (history [] past) current) ↔ Along step Steady [] calls := by
  constructor
  · intro hfaithful
    induction calls using List.reverseRecOn with
    | nil => trivial
    | append_singleton past call ih =>
      obtain ⟨hordered, -, hbefore⟩ := List.pairwise_append.1 hclock.ordered
      have hnow : ∀ c ∈ past, c.now ≤ call.now := fun c hc => hbefore c hc call (List.mem_singleton_self call)
      have hpast : Clocked past := ⟨hordered, fun c hc => hclock.nonempty c (List.mem_append_left _ hc)⟩
      have hsteady := ih hpast fun past' hpre => hfaithful past' (hpre.trans (List.prefix_append _ _))
      refine Along.append.2 ⟨hsteady, ?_, trivial⟩
      by_contra hcall
      refine (inv_of_along hpast hsteady hnow).step_harm (hclock.nonempty call (by simp)) hcall ?_
      rw [← final_concat, ← history_concat]
      refine hfaithful _ List.prefix_rfl call.now fun c hc => ?_
      rcases List.mem_append.1 hc with hc | hc
      · exact hnow c hc
      · rw [List.mem_singleton.1 hc]
  · rintro hsteady past ⟨future, rfl⟩ current hcurrent
    obtain ⟨hordered, -, -⟩ := List.pairwise_append.1 hclock.ordered
    have hpast : Clocked past := ⟨hordered, fun c hc => hclock.nonempty c (List.mem_append_left _ hc)⟩
    exact (inv_of_along hpast (Along.append.1 hsteady).1 hcurrent).faithful current

/-! ### A key that comes back -/

/-- A rotation to `key-002`. -/
def secondKey : Call := .rotateKey "2026-02-01T00:00:00Z" (bankKey "key-002" (.ofString "bb")) none

/-- A rotation back to `key-001`. -/
def firstAgain : Call := .rotateKey "2026-03-01T00:00:00Z" (bankKey "key-001" (.ofString "aa")) none

theorem comeback_clocked : Clocked [firstKey, secondKey, firstAgain] where
  ordered := by
    simp only [List.pairwise_cons, List.mem_cons, List.not_mem_nil, or_false, forall_eq_or_imp, forall_eq]
    refine ⟨⟨?_, ?_⟩, ?_, by simp⟩ <;> decide
  nonempty := by
    simp only [List.mem_cons, List.not_mem_nil, or_false, forall_eq_or_imp, forall_eq]
    decide

theorem steady_secondKey : Steady (step [] firstKey).2 secondKey := by
  have hrows : tenantRows (step [] firstKey).2 "bank" = [nextRow [] firstContent] := by
    rw [step_firstKey, tenantRows_insert Chained.nil, if_pos (show firstContent.tenantId = "bank" from rfl)]
    rfl
  refine ⟨fun _ _ _ _ _ _ _ => ⟨rfl, rfl, rfl⟩, fun k t n hk ht _ => ?_⟩
  obtain rfl := Except.ok.inj ((encode_ofString "key-002").symm.trans hk)
  obtain rfl := Except.ok.inj ((encode_ofString "bank").symm.trans ht)
  rw [selectActiveKey_eq_none, hrows, firstRow, List.find?_singleton, if_neg]
  have hkey : (nextRow [] firstContent).keyId = "key-001" := rfl
  simp [hkey]

theorem clocked_two : Clocked [firstKey, secondKey] where
  ordered := comeback_clocked.ordered.sublist (by simp)
  nonempty := by
    simp only [List.mem_cons, List.not_mem_nil, or_false, forall_eq_or_imp, forall_eq]
    decide

theorem along_two : Along step Steady [] [firstKey, secondKey] := ⟨⟨trivial, trivial⟩, steady_secondKey, trivial⟩

theorem final_two : final step [] [firstKey, secondKey] = (step (step [] firstKey).2 secondKey).2 := by
  unfold final
  rw [List.foldl_cons, List.foldl_cons, List.foldl_nil]

theorem now_firstAgain : firstAgain.now = "2026-03-01T00:00:00Z" := rfl

/-- The query agrees with the history after the rotation. -/
theorem secondKey_faithful :
    Faithful (final step [] [firstKey, secondKey]) (history [] [firstKey, secondKey]) "2026-02-01T00:00:00Z" := by
  refine (wasActiveAt_faithful_iff [firstKey, secondKey] clocked_two).2 along_two _ List.prefix_rfl _ ?_
  simp only [List.mem_cons, List.not_mem_nil, or_false, forall_eq_or_imp, forall_eq]
  decide

/-- **A key that comes back is never active again** for the query: `key-001` is the
active key from March on, and its first retirement is from February. -/
theorem comeback_not_faithful : Clocked [firstKey, secondKey, firstAgain] ∧
    ¬ Faithful (final step [] [firstKey, secondKey, firstAgain]) (history [] [firstKey, secondKey, firstAgain])
      "2026-03-01T00:00:00Z" := by
  have hnow : ∀ c ∈ [firstKey, secondKey], c.now ≤ firstAgain.now := by
    simp only [List.mem_cons, List.not_mem_nil, or_false, forall_eq_or_imp, forall_eq]
    decide
  have h := inv_of_along clocked_two along_two hnow
  have hharm := h.step_harm (by decide) fun hs => ?_
  · rw [← final_concat, ← history_concat, List.cons_append, List.singleton_append, now_firstAgain] at hharm
    exact ⟨comeback_clocked, hharm⟩
  · -- the row of its first registration is still there
    have hkept : (step [] firstKey).2 <+: (step (step [] firstKey).2 secondKey).2 :=
      (firstKey_inv.step steady_secondKey.1).2
    have hfirst : nextRow [] firstContent ∈ (step [] firstKey).2 := by
      rw [step_firstKey]
      exact List.mem_singleton_self _
    have hmem : nextRow [] firstContent ∈ tenantRows (final step [] [firstKey, secondKey]) "bank" := by
      rw [final_two]
      exact mem_tenantRows.2 ⟨hkept.subset hfirst, rfl⟩
    have hnone := hs.2 "key-001" "bank" none (encode_ofString _) (encode_ofString _) rfl
    exact firstRow_ne_none hmem (selectActiveKey_eq_none.1 hnone)

end KeyRegistry
end ProvableAi
