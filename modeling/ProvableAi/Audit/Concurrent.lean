/-
# Threads that record at the same time

Any number of threads run `VerificationAuditLog.record`, each on its own
connection, one statement at a time: the read of the last chain hash, the read of
`MAX(sequence_num)`, and the `INSERT` with its `commit`.

The transactions are those of Python's `sqlite3` on a database in WAL mode, as in
`Storage.Concurrent`: a `SELECT` outside a transaction reads what is committed, an
`INSERT` opens a transaction.  `record` rolls nothing back, so an `INSERT` that
raises leaves the transaction open: after a failed `UNIQUE` check it even keeps
the write lock, and the next call on that connection reads in the old
transaction.

The number is protected by `UNIQUE(tenant_id, sequence_num)`, the link by nothing:
a row that another thread commits between the two reads leaves a call with a
fresh number and a stale chain hash (`stale_link`).  Where that does not happen
every state of the log is chained and numbered (`record_safe`).
-/

import ProvableAi.Audit.Log
import Mathlib.Data.List.Infix

namespace ProvableAi
namespace Audit

/-! ### The statements of `record` -/

/-- Where a thread is in `record`. -/
inductive Position where
  | idle
  /-- Before the read of the last chain hash. -/
  | begun (e : Event)
  /-- Before the read of `MAX(sequence_num)`. -/
  | linked (e : Event) (prevChainHash : String)
  /-- Before the `INSERT`. -/
  | numbered (e : Event) (prevChainHash : String) (sequenceNum : ℤ)

/-- A thread and its connection. -/
structure Thread where
  position : Position
  inTransaction : Bool
  /-- What an open transaction reads, from its first read on. -/
  snapshot : Option (List AuditRow)

/-- The database and the threads. -/
structure World where
  /-- The committed rows. -/
  table : List AuditRow
  thread : ℕ → Thread
  /-- The thread whose transaction holds the write lock. -/
  writer : Option ℕ

/-- The empty log; no thread has called anything. -/
def World.initial : World := ⟨[], fun _ => ⟨.idle, false, none⟩, none⟩

/-- A thread calls `record`, or executes the next statement of its call. -/
inductive Action where
  | call (i : ℕ) (e : Event)
  | step (i : ℕ)

namespace World

/-- The rows that a `SELECT` of a thread sees. -/
def view (w : World) (i : ℕ) : List AuditRow := (w.thread i).snapshot.getD w.table

/-- The world with another thread `i`. -/
def setThread (w : World) (i : ℕ) (t : Thread) : World :=
  { w with thread := Function.update w.thread i t }

/-- Thread `i` at a position, its connection as it is. -/
def setPosition (w : World) (i : ℕ) (p : Position) : World :=
  w.setThread i ⟨p, (w.thread i).inTransaction, (w.thread i).snapshot⟩

/-- The thread after a `SELECT`, which fixes the snapshot of an open transaction. -/
def afterRead (w : World) (i : ℕ) (p : Position) : World :=
  w.setThread i ⟨p, (w.thread i).inTransaction,
    if (w.thread i).inTransaction then some (w.view i) else none⟩

/-- The thread after an `INSERT` that raised: its transaction stays open. -/
def afterFailure (w : World) (i : ℕ) (snapshot : Option (List AuditRow)) : World :=
  w.setThread i ⟨.idle, true, snapshot⟩

/-- `INSERT INTO verification_audit` and `commit`. -/
def insert (w : World) (i : ℕ) (entry : VerificationAuditEntry) : World :=
  match insertEntry w.table entry with
  | .error .overflowError => w.afterFailure i (w.thread i).snapshot
  | result =>
    -- locked by another thread, or the transaction reads an older snapshot
    if w.writer.any (· ≠ i) ∨ (w.thread i).snapshot.any (· ≠ w.table) then
      w.afterFailure i (w.thread i).snapshot
    else
      match result with
      | .ok table =>
        { w.setThread i ⟨.idle, false, none⟩ with table := table, writer := none }
      | .error _ => { w.afterFailure i (some w.table) with writer := some i }

/-- The next statement of a thread. -/
def next (w : World) (i : ℕ) : World :=
  match (w.thread i).position with
  | .idle => w
  | .begun e => w.afterRead i (.linked e (getLatestChainHash (w.view i) e.tenantId))
  | .linked e prevChainHash =>
    w.afterRead i (.numbered e prevChainHash (maxSequenceNum (w.view i) e.tenantId + 1))
  | .numbered e prevChainHash sequenceNum =>
    match e.entry prevChainHash sequenceNum with
    | .error _ => w.setPosition i .idle
    | .ok entry => w.insert i entry

/-- What an action does; a thread calls `record` only when it is idle. -/
def act (w : World) : Action → World
  | .call i e =>
    match (w.thread i).position with
    | .idle => w.setPosition i (.begun e)
    | _ => w
  | .step i => w.next i

/-- The world after a list of actions. -/
def run (w : World) (actions : List Action) : World := actions.foldl act w

end World

/-! ### Prefixes of a log -/

theorem maxSequenceNum_singleton (r : AuditRow) : maxSequenceNum [r] r.tenantId = r.sequenceNum := by
  simp [maxSequenceNum, tenantRows]

theorem tenantRows_of_prefix {table table' : List AuditRow} (h : LogInv table') (hp : table <+: table')
    (t : String) : tenantRows table t <+: tenantRows table' t := by
  obtain ⟨more, rfl⟩ := hp
  have hids := (List.pairwise_append.1 h.ids).1
  rw [tenantRows_eq_filter hids, tenantRows_eq_filter h.ids, List.filter_append]
  exact List.prefix_append _ _

theorem LogInv.of_prefix {table table' : List AuditRow} (h : LogInv table') (hp : table <+: table') :
    LogInv table where
  ids := by
    obtain ⟨more, rfl⟩ := hp
    exact (List.pairwise_append.1 h.ids).1
  intact t := by
    obtain ⟨more, hmore⟩ := tenantRows_of_prefix h hp t
    have := h.intact t
    rw [← hmore] at this
    exact (intact_append.1 this).1
  numbered t := by
    obtain ⟨more, hmore⟩ := tenantRows_of_prefix h hp t
    have := h.numbered t
    rw [← hmore, List.map_append, List.length_append, List.range_add, List.map_append] at this
    exact (List.append_inj this (by simp)).1

/-- If the number after those of a prefix is not taken, the tenant has no row
beyond the prefix. -/
theorem tenantRows_eq_of_unique {table table' : List AuditRow} (h : LogInv table') (hp : table <+: table')
    {t : String} (hfree : ∀ r ∈ table', r.tenantId = t → r.sequenceNum ≠ maxSequenceNum table t + 1) :
    tenantRows table t = tenantRows table' t := by
  have hpre := tenantRows_of_prefix h hp t
  refine hpre.eq_of_length (le_antisymm hpre.length_le (not_lt.1 fun hlt => ?_))
  -- the row at the position after the prefix carries that number
  obtain ⟨n, hn⟩ : ∃ n, n = (tenantRows table t).length := ⟨_, rfl⟩
  rw [← hn] at hlt
  have hnum : (tenantRows table' t)[n].sequenceNum = n + 1 := by
    have := congrArg (fun l => l[n]?) (h.numbered t)
    simpa [hlt] using this
  obtain ⟨r, hr⟩ : ∃ r, r = (tenantRows table' t)[n] := ⟨_, rfl⟩
  have hmem : r ∈ tenantRows table' t := hr ▸ List.getElem_mem hlt
  rw [tenantRows_eq_filter h.ids, List.mem_filter, decide_eq_true_iff] at hmem
  refine hfree r hmem.1 hmem.2 ?_
  rw [(h.of_prefix hp).maxSequenceNum, ← hn, hr]
  exact hnum

/-! ### The invariant -/

/-- A snapshot and a number that agree with some prefix of the log. -/
structure ThreadOk (table : List AuditRow) (th : Thread) : Prop where
  snapshot : ∀ t, th.snapshot = some t → t <+: table
  numbered : ∀ e prev n, th.position = .numbered e prev n → ∃ t, t <+: table ∧
    prev = getLatestChainHash t e.tenantId ∧ n = maxSequenceNum t e.tenantId + 1

/-- The log is chained; what the threads hold was read from prefixes of it. -/
structure WorldInv (w : World) : Prop where
  log : LogInv w.table
  threads : ∀ i, ThreadOk w.table (w.thread i)

/-- A thread without a snapshot and without a call. -/
theorem ThreadOk.idle (table : List AuditRow) (inTransaction : Bool) : ThreadOk table ⟨.idle, inTransaction, none⟩ where
  snapshot _ hs := absurd hs.symm (Option.some_ne_none _)
  numbered _ _ _ hn := Position.noConfusion hn

theorem WorldInv.initial : WorldInv .initial where
  log := .nil
  threads _ := .idle _ _

theorem ThreadOk.mono {table table' : List AuditRow} {th : Thread} (h : ThreadOk table th)
    (hp : table <+: table') : ThreadOk table' th where
  snapshot t ht := (h.snapshot t ht).trans hp
  numbered e prev n hn := by
    obtain ⟨t, ht, hprev, hnum⟩ := h.numbered e prev n hn
    exact ⟨t, ht.trans hp, hprev, hnum⟩

/-- One thread changes and the log grows. -/
theorem WorldInv.update {w w' : World} (h : WorldInv w) {i : ℕ} {th : Thread}
    (hthread : w'.thread = Function.update w.thread i th) (hlog : LogInv w'.table)
    (hp : w.table <+: w'.table) (hth : ThreadOk w'.table th) : WorldInv w' where
  log := hlog
  threads j := by
    rw [hthread]
    by_cases hj : j = i
    · subst hj
      rw [Function.update_self]
      exact hth
    · rw [Function.update_of_ne hj]
      exact (h.threads j).mono hp

theorem WorldInv.setThread {w : World} (h : WorldInv w) {i : ℕ} {th : Thread} (hth : ThreadOk w.table th) :
    WorldInv (w.setThread i th) :=
  h.update rfl h.log (List.prefix_refl _) hth

theorem WorldInv.setPosition {w : World} (h : WorldInv w) (i : ℕ) {p : Position}
    (hp : ∀ e prev n, p ≠ .numbered e prev n) : WorldInv (w.setPosition i p) :=
  h.setThread ⟨(h.threads i).snapshot, fun e prev n hn => absurd hn (hp e prev n)⟩

theorem WorldInv.view_prefix {w : World} (h : WorldInv w) (i : ℕ) : w.view i <+: w.table := by
  rw [World.view]
  cases hs : (w.thread i).snapshot with
  | none => exact List.prefix_refl _
  | some t => exact (h.threads i).snapshot t hs

theorem WorldInv.afterRead {w : World} (h : WorldInv w) (i : ℕ) {p : Position}
    (hp : ∀ e prev n, p = .numbered e prev n →
      prev = getLatestChainHash (w.view i) e.tenantId ∧ n = maxSequenceNum (w.view i) e.tenantId + 1) :
    WorldInv (w.afterRead i p) := by
  refine h.setThread ⟨fun t ht => ?_, fun e prev n hn => ⟨_, h.view_prefix i, hp e prev n hn⟩⟩
  simp only at ht
  split_ifs at ht
  obtain rfl := Option.some.inj ht
  exact h.view_prefix i

theorem WorldInv.afterFailure {w : World} (h : WorldInv w) (i : ℕ) {snapshot : Option (List AuditRow)}
    (hs : ∀ t, snapshot = some t → t <+: w.table) : WorldInv (w.afterFailure i snapshot) :=
  h.setThread ⟨hs, fun _ _ _ hn => Position.noConfusion hn⟩

/-- A row that is inserted under a number read together with its link extends the
chain: the `UNIQUE` constraint refuses it if the tenant has got a row since. -/
theorem WorldInv.insertEntry {w : World} (h : WorldInv w) {e : Event} {prev : String} {n : ℤ}
    {t : List AuditRow} (ht : t <+: w.table) (hprev : prev = getLatestChainHash t e.tenantId)
    (hn : n = maxSequenceNum t e.tenantId + 1) {entry : VerificationAuditEntry}
    (hentry : e.entry prev n = .ok entry) {table : List AuditRow}
    (hins : insertEntry w.table entry = .ok table) : LogInv table ∧ w.table <+: table := by
  have hlt := h.log.of_prefix ht
  rw [hprev, getLatestChainHash_eq (hlt.intact _), Event.entry_ok_iff] at hentry
  obtain ⟨c, hc, rfl⟩ := hentry
  obtain ⟨hct, -, hcn, -, -⟩ := Event.content_ok hc
  obtain ⟨-, hfree, rfl⟩ := insertEntry_ok_iff.1 hins
  simp only [hct, hcn, hn] at hfree
  have hrows := tenantRows_eq_of_unique h.log ht hfree
  refine ⟨h.log.concat (fun r hr => lt_nextId hr) rfl ?_ ?_, List.prefix_append _ _⟩
  · simp only [hct, hrows]
  · simp only [hct, hcn, hn, hlt.maxSequenceNum, hrows]

theorem WorldInv.insert {w : World} (h : WorldInv w) {i : ℕ} {e : Event} {prev : String} {n : ℤ}
    (hpos : (w.thread i).position = .numbered e prev n) {entry : VerificationAuditEntry}
    (hentry : e.entry prev n = .ok entry) : WorldInv (w.insert i entry) := by
  obtain ⟨t, ht, hprev, hn⟩ := (h.threads i).numbered e prev n hpos
  have hfail := h.afterFailure i (h.threads i).snapshot
  unfold World.insert
  split
  · exact hfail
  · split_ifs
    · exact hfail
    · split
      · rename_i table hins
        obtain ⟨hlog, hp⟩ := h.insertEntry ht hprev hn hentry hins
        exact h.update rfl hlog hp (.idle _ _)
      · refine h.update rfl h.log (List.prefix_refl _) ⟨fun t ht => ?_, fun _ _ _ hn => Position.noConfusion hn⟩
        obtain rfl := Option.some.inj ht
        exact List.prefix_refl _

/-- The next statement of the thread, where it is the read of the number, finds
the chain hash that the thread has read still the tenant's last. -/
def World.Fresh (w : World) : Action → Prop
  | .call _ _ => True
  | .step i => ∀ e prev, (w.thread i).position = .linked e prev →
      getLatestChainHash (w.view i) e.tenantId = prev

theorem WorldInv.act {w : World} (h : WorldInv w) {a : Action} (ha : w.Fresh a) : WorldInv (w.act a) := by
  cases a with
  | call i e =>
    unfold World.act
    simp only
    split
    · exact h.setPosition i fun _ _ _ hn => Position.noConfusion hn
    · exact h
  | step i =>
    have ha : ∀ e prev, (w.thread i).position = .linked e prev →
        getLatestChainHash (w.view i) e.tenantId = prev := ha
    unfold World.act World.next
    simp only
    split
    · exact h
    · exact h.afterRead i fun _ _ _ heq => by simp at heq
    · rename_i e prev hpos
      refine h.afterRead i fun e' prev' n' heq => ?_
      obtain ⟨rfl, rfl, rfl⟩ := Position.numbered.inj heq
      exact ⟨(ha _ _ hpos).symm, rfl⟩
    · rename_i e prev n hpos
      split
      · exact h.setPosition i fun _ _ _ hn => Position.noConfusion hn
      · rename_i entry hentry
        exact h.insert hpos hentry

/-- Every step of the run is fresh in the state before it. -/
def World.Undisturbed : World → List Action → Prop
  | _, [] => True
  | w, a :: actions => w.Fresh a ∧ World.Undisturbed (w.act a) actions

theorem WorldInv.run {actions : List Action} : ∀ {w : World}, WorldInv w → w.Undisturbed actions →
    WorldInv (w.run actions) := by
  induction actions with
  | nil => intro w h _; exact h
  | cons a actions ih => intro w h hu; exact ih (h.act hu.1) hu.2

theorem World.Undisturbed.of_prefix {actions more : List Action} : ∀ {w : World},
    w.Undisturbed (actions ++ more) → w.Undisturbed actions := by
  induction actions with
  | nil => intro w _; trivial
  | cons a actions ih => intro w h; exact ⟨h.1, ih h.2⟩

/-- **Undisturbed threads keep the log.**  In every run in which no call reads its
number after another call of its tenant has committed behind its chain hash, every
state that is reached has each tenant's rows accepted by `verify_chain` and
numbered `1` to `n`. -/
theorem record_safe (actions : List Action) (h : World.initial.Undisturbed actions)
    (reached : List Action) (hr : reached <+: actions) (t : String) :
    ChainValid (World.initial.run reached).table t ∧
      (tenantRows (World.initial.run reached).table t).map (fun r => r.sequenceNum) =
        (List.range (tenantRows (World.initial.run reached).table t).length).map fun k : ℕ => (k : ℤ) + 1 := by
  obtain ⟨more, rfl⟩ := hr
  have hinv := WorldInv.initial.run h.of_prefix
  exact ⟨chainValid_iff.2 (hinv.log.intact t), hinv.log.numbered t⟩

/-! ### A stale link -/

/-- One call after the other. -/
def orderlyRun : List Action := [.call 0 sampleEvent, .step 0, .step 0, .step 0]

/-- A call by itself reads, reads and inserts. -/
theorem orderlyRun_table {e : Event} {c : AuditContent} (h : e.content 1 = .ok c) (hs : e.sequenceId = none) :
    (World.initial.run [.call 0 e, .step 0, .step 0, .step 0]).table =
      [⟨⟨c, computeRowHash c, genesisHash, toHex (linkDigest genesisDigest c)⟩, 1⟩] := by
  obtain ⟨-, -, -, hseq, -⟩ := Event.content_ok h
  have he : e.entry (toHex genesisDigest) 1 =
      .ok ⟨c, computeRowHash c, toHex genesisDigest, toHex (linkDigest genesisDigest c)⟩ :=
    Event.entry_ok_iff.2 ⟨c, h, rfl⟩
  simp [World.run, World.act, World.initial, World.setPosition, World.setThread, World.next, World.afterRead, World.view,
    getLatestChainHash_nil, maxSequenceNum_nil, he, World.insert, insertEntry, hseq, hs, genesisHash_eq, nextId]

/-- The call of a thread by itself is undisturbed, and its row is there after it. -/
theorem record_safe_orderly :
    (World.initial.Undisturbed orderlyRun ∧ (World.initial.run orderlyRun).table ≠ []) ∧
      ChainValid (World.initial.run orderlyRun).table "acme" ∧
        (tenantRows (World.initial.run orderlyRun).table "acme").map (fun r => r.sequenceNum) =
          (List.range (tenantRows (World.initial.run orderlyRun).table "acme").length).map
            fun k : ℕ => (k : ℤ) + 1 := by
  have hu : World.initial.Undisturbed orderlyRun := by
    simp [orderlyRun, World.Undisturbed, World.Fresh, World.act, World.initial, World.setPosition,
      World.setThread, World.next, World.afterRead, World.view]
  have htable : (World.initial.run orderlyRun).table ≠ [] := by
    have hcontent : sampleEvent.content 1 = .ok sampleContent := rfl
    rw [orderlyRun, orderlyRun_table hcontent rfl]
    exact List.cons_ne_nil _ _
  exact ⟨⟨hu, htable⟩, record_safe orderlyRun hu orderlyRun (List.prefix_refl _) "acme"⟩

/-- Thread `1` records between the two reads of thread `0`. -/
def staleRun (e : Event) : List Action :=
  [.call 0 e, .call 1 e, .step 0, .step 1, .step 1, .step 1, .step 0, .step 0]

/-- The second row gets the number `2` and the chain hash of a first row. -/
theorem staleRun_table {e : Event} {c₁ c₂ : AuditContent} (h₁ : e.content 1 = .ok c₁)
    (h₂ : e.content 2 = .ok c₂) (hs : e.sequenceId = none) :
    (World.initial.run (staleRun e)).table =
      [⟨⟨c₁, computeRowHash c₁, genesisHash, toHex (linkDigest genesisDigest c₁)⟩, 1⟩,
       ⟨⟨c₂, computeRowHash c₂, genesisHash, toHex (linkDigest genesisDigest c₂)⟩, 2⟩] := by
  obtain ⟨ht₁, -, hn₁, hs₁, -⟩ := Event.content_ok h₁
  obtain ⟨ht₂, -, hn₂, hs₂, -⟩ := Event.content_ok h₂
  have he₁ : e.entry (toHex genesisDigest) 1 =
      .ok ⟨c₁, computeRowHash c₁, toHex genesisDigest, toHex (linkDigest genesisDigest c₁)⟩ :=
    Event.entry_ok_iff.2 ⟨c₁, h₁, rfl⟩
  have he₂ : e.entry (toHex genesisDigest) 2 =
      .ok ⟨c₂, computeRowHash c₂, toHex genesisDigest, toHex (linkDigest genesisDigest c₂)⟩ :=
    Event.entry_ok_iff.2 ⟨c₂, h₂, rfl⟩
  have hmax : ∀ rh ph ch i, maxSequenceNum [⟨⟨c₁, rh, ph, ch⟩, i⟩] e.tenantId = 1 := by
    intro rh ph ch i
    rw [← ht₁, ← hn₁]
    exact maxSequenceNum_singleton ⟨⟨c₁, rh, ph, ch⟩, i⟩
  simp [staleRun, World.run, World.act, World.initial, World.setPosition, World.setThread, World.next,
    World.afterRead, World.view, getLatestChainHash_nil, maxSequenceNum_nil, he₁, World.insert, insertEntry,
    hs₁, hs, hmax, he₂, hs₂, ht₁, ht₂, hn₁, hn₂, nextId, genesisHash_eq]

/-- The columns of the second row. -/
def staleContent : AuditContent := { sampleContent with sequenceNum := 2 }

/-- Its row hash, as bytes. -/
def staleDigest : Bytes :=
  [0x7e, 0x97, 0x3f, 0x9d, 0xdf, 0xc5, 0x42, 0xa7, 0x6a, 0xcf, 0xe9, 0x82, 0x91, 0x8c, 0x1b, 0x7f,
   0x6b, 0xc5, 0x97, 0x8b, 0x09, 0xa7, 0xd1, 0x41, 0xfd, 0x91, 0xa3, 0x60, 0x8a, 0x9d, 0x31, 0x84]

theorem staleContent_digest : staleContent.digest = staleDigest := sha256_dumps (by decide +kernel)

/-- **A stale link.**  One call committed between the two reads of another breaks
the chain for good. -/
theorem stale_link : ¬ ChainValid (World.initial.run (staleRun sampleEvent)).table "acme" := by
  rw [chainValid_iff, @staleRun_table sampleEvent sampleContent staleContent rfl rfl rfl]
  rintro ⟨-, -, -, hchain, -⟩
  have hlink : linkDigest genesisDigest staleContent = linkDigest (linkDigest genesisDigest sampleContent) staleContent :=
    toHex_inj.1 hchain
  have hstale : (linkDigest genesisDigest staleContent).head? = some 0x35 := by
    rw [linkDigest, staleContent_digest]
    decide +kernel
  have hgood : (linkDigest (linkDigest genesisDigest sampleContent) staleContent).head? = some 0x7e := by
    rw [linkDigest_sampleContent, linkDigest, staleContent_digest]
    decide +kernel
  rw [hlink, hgood] at hstale
  exact absurd hstale (by decide)

end Audit
end ProvableAi
