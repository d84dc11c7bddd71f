/-
# Anchors at the same time

Any number of threads run `AuditAnchorStore.anchor`, each on its own connection:
the read of `MAX(anchor_seq)`, the request to the timestamp authority, the read of
the last chain hash, and the `INSERT` with its `commit`.

The number is read before a request that may take seconds and is written after it,
and no constraint protects it.  Two calls of one tenant that overlap so far get
one number (`stale_number`).  `anchors_sound_iff`: in every state of a run the
chains are valid and the rows numbered from one on, exactly if no row of the run
is committed under a number that is no longer the next one.  The chain hash needs
no condition of its own: it is read after the number.
-/

import ProvableAi.Audit.Anchor
import ProvableAi.Lib.Connections

namespace ProvableAi
namespace Anchor

open HashChain Connections Lockstep

/-! ### The statements of `anchor` -/

/-- Where a thread is in `anchor`. -/
inductive Position where
  | idle
  /-- Before the read of the number. -/
  | begun (a : AnchorCall)
  /-- Before the request to the timestamp authority. -/
  | numbered (a : AnchorCall) (anchorSeq : ℤ)
  /-- Before the read of the last chain hash. -/
  | answered (a : AnchorCall) (anchorSeq : ℤ)
  /-- Before the `INSERT`. -/
  | linked (a : AnchorCall) (anchorSeq : ℤ) (prevAnchorHash : String)

/-- A thread calls `anchor`, or executes the next statement of its call. -/
inductive Action where
  | call (i : ℕ) (a : AnchorCall)
  | step (i : ℕ)

/-- The store and the threads. -/
abbrev Threads := World Position AnchorRow

namespace Threads

/-- The empty store; no thread has called anything. -/
def initial : Threads := World.initial .idle

/-- The next statement of a thread. -/
def next (w : Threads) (i : ℕ) : Threads :=
  match (w.conn i).position with
  | .idle => w
  | .begun a => w.afterRead i (.numbered a (nextAnchorSeq (w.view i) a.tenantId))
  | .numbered a n => w.setPosition i (.answered a n)
  | .answered a n => w.afterRead i (.linked a n (prevAnchorHash (w.view i) a.tenantId))
  | .linked a n prev =>
    match a.entry n prev with
    | .error _ => w.setPosition i .idle
    | .ok entry => w.insert i .idle (insertEntry w.table entry)

/-- What an action does; a thread calls `anchor` only when it is idle. -/
def act (w : Threads) : Action → Threads
  | .call i a =>
    match (w.conn i).position with
    | .idle => w.setPosition i (.begun a)
    | _ => w
  | .step i => w.next i

/-- An action as a step of a machine. -/
def step (w : Threads) (x : Action) : Unit × Threads := ((), w.act x)

/-- The state after the actions. -/
def run (actions : List Action) : Threads := final step initial actions

/-- `verify_anchor_chain` is content with every tenant, whose rows have the numbers `1`, `2`, …. -/
def Good (w : Threads) : Prop :=
  ∀ t, ChainValid w.table t ∧ (tenantRows w.table t).map (fun r => r.anchorSeq) =
    (List.range (tenantRows w.table t).length).map fun k : ℕ => (k : ℤ) + 1

/-- The `INSERT` that the action is, if it is one that will succeed, is under the next number of its tenant. -/
def Fresh (w : Threads) : Action → Prop
  | .call _ _ => True
  | .step i => ∀ a n prev entry, (w.conn i).position = .linked a n prev → a.entry n prev = .ok entry → ¬ w.Barred i →
      (∀ r ∈ w.table, r.anchorId ≠ a.anchorId) → n = nextAnchorSeq w.table a.tenantId

end Threads

/-! ### What a call has read -/

/-- The number and the chain hash of a call were read one after the other, before what its connection sees now. -/
def ReadFrom (seen : List AnchorRow) : Position → Prop
  | .idle => True
  | .begun _ => True
  | .numbered a n => ∃ t, t <+: seen ∧ n = nextAnchorSeq t a.tenantId
  | .answered a n => ∃ t, t <+: seen ∧ n = nextAnchorSeq t a.tenantId
  | .linked a n prev => ∃ t t', t <+: t' ∧ t' <+: seen ∧ n = nextAnchorSeq t a.tenantId ∧ prev = prevAnchorHash t' a.tenantId

theorem ReadFrom.mono (t t' : List AnchorRow) (p : Position) (ht : t <+: t') (h : ReadFrom t p) : ReadFrom t' p := by
  cases p with
  | idle => trivial
  | begun a => trivial
  | numbered a n =>
    obtain ⟨u, hu, hn⟩ := h
    exact ⟨u, hu.trans ht, hn⟩
  | answered a n =>
    obtain ⟨u, hu, hn⟩ := h
    exact ⟨u, hu.trans ht, hn⟩
  | linked a n prev =>
    obtain ⟨u, u', huu, hu, hn, hprev⟩ := h
    exact ⟨u, u', huu, hu.trans ht, hn, hprev⟩

section Prefix

variable {table table' : List AnchorRow}

theorem ascending_of_isPrefix (h : Autoincrement.Ascending AnchorRow.id table') (hp : table <+: table') :
    Autoincrement.Ascending AnchorRow.id table := by
  obtain ⟨more, rfl⟩ := hp
  exact (List.pairwise_append.1 h).1

theorem tenantRows_of_isPrefix (h : Autoincrement.Ascending AnchorRow.id table') (hp : table <+: table') (t : String) :
    tenantRows table t <+: tenantRows table' t := by
  rw [tenantRows, tenantRows, Autoincrement.selectAsc_eq h, Autoincrement.selectAsc_eq (ascending_of_isPrefix h hp)]
  obtain ⟨more, rfl⟩ := hp
  rw [List.filter_append]
  exact List.prefix_append _ _

theorem AnchorInv.of_prefix (h : AnchorInv table') (hp : table <+: table') : AnchorInv table where
  ids := ascending_of_isPrefix h.ids hp
  intact t := by
    obtain ⟨more, hmore⟩ := tenantRows_of_isPrefix h.ids hp t
    have hintact := h.intact t
    rw [← hmore] at hintact
    exact (sealed_append.1 hintact).1
  numbered t := by
    obtain ⟨more, hmore⟩ := tenantRows_of_isPrefix h.ids hp t
    have hnum := h.numbered t
    rw [← hmore, List.map_append, List.length_append, List.range_add, List.map_append] at hnum
    exact (List.append_inj hnum (by simp)).1

/-- **A number that is still the next one** says that the tenant has no row that was not there when it was read, and so
that a chain hash read since is still the last one. -/
theorem AnchorInv.prev_of_fresh (h : AnchorInv table') {read : List AnchorRow} (hread : read <+: table)
    (hp : table <+: table') {t : String} (hnext : nextAnchorSeq read t = nextAnchorSeq table' t) :
    prevAnchorHash table t = toHex (chainDigest table' t) := by
  have htable := h.of_prefix hp
  have hlen : (tenantRows read t).length = (tenantRows table' t).length := by
    rw [(htable.of_prefix hread).nextAnchorSeq_eq, h.nextAnchorSeq_eq] at hnext
    omega
  have h₁ := (tenantRows_of_isPrefix htable.ids hread t).length_le
  have h₂ := tenantRows_of_isPrefix h.ids hp t
  have hrows : tenantRows table t = tenantRows table' t := h₂.eq_of_length (by have := h₂.length_le; omega)
  rw [htable.prevAnchorHash_eq, chainDigest, chainDigest, hrows]

end Prefix

/-! ### Every run -/

namespace Threads

/-- Ids ascend, the table is in order, and the calls have read what they hold from it. -/
abbrev StoreInv (w : Threads) : Prop := Connections.Inv AnchorInv ReadFrom w

theorem StoreInv.initial : StoreInv Threads.initial := Connections.Inv.initial .nil trivial

/-- A fresh row keeps the table in order. -/
theorem StoreInv.commit {w : Threads} (h : StoreInv w) {i : ℕ} {a : AnchorCall} {n : ℤ} {prev : String}
    (hpos : (w.conn i).position = .linked a n prev) {entry : AnchorEntry} (hentry : a.entry n prev = .ok entry)
    (hfresh : n = nextAnchorSeq w.table a.tenantId) {table : List AnchorRow}
    (hinsert : insertEntry w.table entry = .ok table) : AnchorInv table ∧ w.table <+: table := by
  have hread := h.position i
  rw [hpos] at hread
  obtain ⟨t, t', htt, ht, hn, rfl⟩ := hread
  have hprev := h.table.prev_of_fresh htt (ht.trans (h.view_prefix i)) (hn.symm.trans hfresh)
  rw [hprev] at hentry
  obtain ⟨-, rfl⟩ := insertEntry_eq_ok.1 hinsert
  rw [h.table.nextAnchorSeq_eq] at hfresh
  exact ⟨h.table.concat hentry hfresh rfl, List.prefix_append _ _⟩

theorem StoreInv.act {w : Threads} (h : StoreInv w) {x : Action} (hx : w.Fresh x) : StoreInv (w.act x) := by
  cases x with
  | call i a =>
    cases hpos : (w.conn i).position with
    | idle =>
      simp only [Threads.act, hpos]
      refine Connections.Inv.setPosition h ReadFrom.mono ?_
      trivial
    | _ => simpa only [Threads.act, hpos] using h
  | step i =>
    have hread := h.position i
    cases hpos : (w.conn i).position with
    | idle => simpa only [Threads.act, Threads.next, hpos] using h
    | begun a =>
      simp only [Threads.act, Threads.next, hpos]
      refine Connections.Inv.afterRead h ReadFrom.mono ?_
      exact ⟨_, List.prefix_refl _, rfl⟩
    | numbered a n =>
      rw [hpos] at hread
      simp only [Threads.act, Threads.next, hpos]
      refine Connections.Inv.setPosition h ReadFrom.mono ?_
      exact hread
    | answered a n =>
      rw [hpos] at hread
      obtain ⟨t, ht, hn⟩ := hread
      simp only [Threads.act, Threads.next, hpos]
      refine Connections.Inv.afterRead h ReadFrom.mono ?_
      exact ⟨t, _, ht, List.prefix_refl _, hn, rfl⟩
    | linked a n prev =>
      cases hentry : a.entry n prev with
      | error e =>
        simp only [Threads.act, Threads.next, hpos, hentry]
        refine Connections.Inv.setPosition h ReadFrom.mono ?_
        trivial
      | ok entry =>
        simp only [Threads.act, Threads.next, hpos, hentry]
        refine Connections.Inv.insert h ReadFrom.mono ?_ fun table hb hinsert => ?_
        · exact fun _ => trivial
        obtain ⟨hfree, -⟩ := insertEntry_eq_ok.1 hinsert
        rw [entry_content hentry] at hfree
        exact StoreInv.commit h hpos hentry (hx a n prev entry hpos hentry hb hfree) hinsert

/-- A row that is committed in a good state and leaves a good state was fresh. -/
theorem fresh_of_good {w : Threads} (hids : Autoincrement.Ascending AnchorRow.id w.table) (hw : Good w) {x : Action}
    (hx : Good (w.act x)) : w.Fresh x := by
  cases x with
  | call i a => trivial
  | step i =>
    intro a n prev entry hpos hentry hb hfree
    have hcontent := entry_content hentry
    have hinv : AnchorInv w.table := ⟨hids, fun t => chainValid_iff.1 (hw t).1, fun t => (hw t).2⟩
    have hinsert := insertEntry_eq_ok.2 ⟨by rwa [hcontent], rfl⟩
    have htable : (w.act (.step i)).table = w.table ++ [{ entry with id := Autoincrement.nextId AnchorRow.id w.table }] := by
      simp only [Threads.act, Threads.next, hpos, hentry]
      rcases @insert_table Position AnchorRow _ _ w i .idle (insertEntry w.table entry) with h | h
      · rcases h.2 with h | ⟨e, he⟩
        · exact absurd h hb
        · rw [hinsert] at he
          cases he
      · exact Except.ok.inj (h.2.symm.trans hinsert)
    have hnum := (hx a.tenantId).2
    rw [htable, tenantRows_concat hids, if_pos (by rw [hcontent]; rfl), List.map_append, List.length_append,
      hinv.numbered, List.length_singleton, List.range_succ, List.map_append] at hnum
    have hlast := (List.append_inj hnum rfl).2
    simp only [List.map_cons, List.map_nil, List.cons.injEq, and_true, hcontent] at hlast
    rw [hinv.nextAnchorSeq_eq]
    exact hlast

theorem good_of_inv {w : Threads} (h : StoreInv w) : Good w := fun t => ⟨chainValid_iff.2 (h.table.intact t), h.table.numbered t⟩

/-- **The store under concurrency.**  Every state of a run has every tenant's chain valid and its rows numbered from one
on, exactly if every row that the run commits is fresh. -/
theorem anchors_sound_iff (actions : List Action) :
    (∀ reached, reached <+: actions → Good (run reached)) ↔ Along step Fresh initial actions := by
  constructor
  · intro h
    induction actions using List.reverseRecOn with
    | nil => trivial
    | append_singleton actions x ih =>
      have hbefore := ih fun reached hr => h reached (hr.trans (List.prefix_append _ _))
      have hinv : StoreInv (run actions) := hbefore.invariant (fun w y hw hy => hw.act hy) .initial
      refine Along.append.2 ⟨hbefore, ?_, trivial⟩
      refine fresh_of_good hinv.table.ids (h actions (List.prefix_append _ _)) ?_
      have hx := h (actions ++ [x]) (List.prefix_refl _)
      rwa [run, final_concat] at hx
  · rintro h reached ⟨more, rfl⟩
    have hinv : StoreInv (run reached) := (Along.append.1 h).1.invariant (fun w y hw hy => hw.act hy) .initial
    exact good_of_inv hinv

/-! ### One number twice -/

/-- Thread `1` anchors while thread `0` waits for the timestamp authority. -/
def staleRun (a b : AnchorCall) : List Action :=
  [.call 0 a, .call 1 b, .step 0, .step 1, .step 1, .step 1, .step 1, .step 0, .step 0, .step 0]

/-- What a call makes of a number and a chain hash. -/
theorem entry_exists (a : AnchorCall) (n : ℤ) (prev : Bytes) : ∃ e : AnchorEntry, a.entry n (toHex prev) = .ok e ∧
    e.anchorId = a.anchorId ∧ e.tenantId = a.tenantId ∧ e.anchorSeq = n ∧ ∃ d, e.anchorChainHash = toHex d :=
  ⟨_, entry_hex _ _ _, rfl, rfl, rfl, _, rfl⟩

/-- The rows of two calls of one tenant: both are number one. -/
theorem staleRun_seqs {a b : AnchorCall} {t : String} (ha : a.tenantId = t) (hb : b.tenantId = t)
    (hid : b.anchorId ≠ a.anchorId) :
    ∃ r s : AnchorRow, (run (staleRun a b)).table = [r, s] ∧ r.tenantId = t ∧ s.tenantId = t ∧
      r.anchorSeq = 1 ∧ s.anchorSeq = 1 ∧ r.id < s.id := by
  have hprev : prevAnchorHash [] t = toHex Audit.genesisDigest := AnchorInv.nil.prevAnchorHash_eq t
  have hnext : nextAnchorSeq [] t = 1 := rfl
  have hlast : ∀ r : AnchorRow, r.tenantId = t → prevAnchorHash [r] t = r.anchorChainHash := by
    intro r hr
    simp [prevAnchorHash, tenantRows, Autoincrement.selectAsc, hr]
  obtain ⟨first, hfirst, hfid, hft, hfn, d, hd⟩ := entry_exists b 1 Audit.genesisDigest
  obtain ⟨second, hsecond, hsid, hst, hsn, -⟩ := entry_exists a 1 d
  simp [staleRun, run, final, step, act, initial, World.initial, World.setPosition, World.setConn, next,
    World.afterRead, World.view, hprev, hnext, hlast, ha, hb, hfirst, hsecond, hfid, hft, hfn, hd, hsid, hst, hsn, hid,
    World.insert, insertEntry, World.Barred, Autoincrement.nextId]

/-- A call for `acme` without a timestamp. -/
def acmeCall (anchorId : String) : AnchorCall :=
  ⟨anchorId, "2026-01-01T00:00:00Z", "acme", genesisHash, none, false⟩

/-- **One number twice.** -/
theorem stale_number : ¬ ∀ reached, reached <+: staleRun (acmeCall "anchor_0") (acmeCall "anchor_1") →
    Good (run reached) := by
  intro h
  obtain ⟨r, s, htable, hr, hs, hrn, hsn, hids⟩ := @staleRun_seqs (acmeCall "anchor_0") (acmeCall "anchor_1") "acme" rfl rfl
    (by decide)
  have hnum := (h _ (List.prefix_refl _) "acme").2
  have hrows : tenantRows [r, s] "acme" = [r, s] := by
    rw [tenantRows, Autoincrement.selectAsc_eq (by simpa [Autoincrement.Ascending] using hids)]
    simp [hr, hs]
  rw [htable, hrows] at hnum
  simp [hrn, hsn, List.range_succ] at hnum

end Threads

end Anchor
end ProvableAi
