/-
# Engines side by side

Any number of `GovernanceEngine`s with one signing key, each with a connection of
its own to one database, and `record_decision` on all of them at once.  A call
reads where the chain of its instance ends, builds and signs the proof, and only
then appends it, statement by statement as in `Storage.Concurrent`; what it has read
may be out of date by then.  The approved versions do not change.

`engines_linearizable`: the calls that returned, in the order of their commits, are
a sequential run.  `record_decision` on one engine, one call after the other, returns
the same proofs and leaves the same ledger.  What is true of the ledger of one engine
is therefore true here; `engines_verifyChain_iff` is that for the verifier.
-/

import ProvableAi.Engine.Backends
import ProvableAi.Storage.Concurrent

namespace ProvableAi
namespace Engines

open HashChain Lockstep
open Concurrent (World Tables Running Stmt)

/-! ### Calls under way -/

/-- A call of `record_decision` and the proof it has built. -/
structure Pending where
  env : CallEnv
  args : DecisionArgs
  proof : ProofV1

/-- The call without its proof. -/
def Pending.call (q : Pending) : CallEnv × DecisionArgs := (q.env, q.args)

/-- The database with its connections, and the engines on them. -/
structure Cluster (C : Type) where
  world : World C
  /-- The call of each engine that has built its proof. -/
  pending : C → Option Pending
  /-- The calls that returned, in order. -/
  returned : List Pending

/-- What the engines do next. -/
inductive Step (C : Type) where
  /-- `record_decision`, up to the call of `append_ledger_entry`. -/
  | build (c : C) (env : CallEnv) (args : DecisionArgs)
  /-- The next statement of `append_ledger_entry`. -/
  | statement (c : C) (busy : Bool) (now : String)
  /-- The process of the engine ends. -/
  | close (c : C)

/-- No call yet, over an empty ledger. -/
def Cluster.initial (C : Type) : Cluster C := ⟨.initial C, fun _ => none, []⟩

/-- The tables as `record_decision` reads them: the versions approved in `approved`,
the ledger being `ledger`. -/
def tables (approved : Db) (ledger : List LedgerRow) : Db := { approved with ledger := ledger }

section Steps

variable {C : Type} [DecidableEq C] (signer : Signer) (approved : Db)

/-- How the call that a statement ended has ended, if it ended one. -/
def ended (before after : World C) : Option Concurrent.Outcome :=
  ((after.log.drop before.log.length).head?).map Prod.snd

/-- The connection after the `SELECT`s of `record_decision`. -/
def afterRead (w : World C) (c : C) : World C :=
  w.apply c (.next ⟨(w.conn c).afterRead w.committed, none⟩ w.writer)

/-- One step. -/
def Cluster.act (s : Cluster C) : Step C → Cluster C
  | .build c env args =>
    if (s.world.conn c).running.isSome then s
    else
      match buildProof (tables approved ((s.world.conn c).sees s.world.committed).ledger) signer env args with
      | .error _ => { s with world := afterRead s.world c }
      | .ok p =>
        { s with
          world := (afterRead s.world c).act (.start c (.append p.toDict))
          pending := Function.update s.pending c (some ⟨env, args, p⟩) }
  | .statement c busy now =>
    let world := s.world.act (.step c busy now)
    match ended s.world world with
    | none => { s with world := world }
    | some (.raised _) => { s with world := world, pending := Function.update s.pending c none }
    | some (.returned _) =>
      { world := world
        pending := Function.update s.pending c none
        returned := s.returned ++ (s.pending c).toList }
  | .close c =>
    { s with world := s.world.act (.close c), pending := Function.update s.pending c none }

/-- A run. -/
def Cluster.run (s : Cluster C) (steps : List (Step C)) : Cluster C :=
  steps.foldl (Cluster.act signer approved) s

end Steps

/-! ### One engine -/

/-- `record_decision` on one engine. -/
def recordStep (signer : Signer) (db : Db) (call : CallEnv × DecisionArgs) : Except PyErr ProofV1 × Db :=
  recordDecision db signer call.1 call.2

/-- The calls, one after the other, return the proofs and leave the ledger. -/
structure Sequential (signer : Signer) (approved : Db) (returned : List Pending) (ledger : List LedgerRow) :
    Prop where
  answers : outputs (recordStep signer) (fun _ => true) (tables approved []) (returned.map Pending.call) =
    returned.map fun q => (q.call, .ok q.proof)
  ledger : (final (recordStep signer) (tables approved []) (returned.map Pending.call)).ledger = ledger

/-! ### What is built -/

section Built

variable {signer : Signer} {approved : Db} {l m : List LedgerRow} {env : CallEnv} {a : DecisionArgs} {p : ProofV1}

/-- What a call builds depends on the approved versions and on where the chain ends. -/
theorem buildProof_congr {db db' : Db} (happ : db.approvals = db'.approvals)
    (hlink : getPreviousHashAndSequence db a.instanceId = getPreviousHashAndSequence db' a.instanceId) :
    buildProof db signer env a = buildProof db' signer env a := by
  rw [buildProof, buildProof, draft_eq_draftIn, draft_eq_draftIn, happ, hlink]

/-- A proof that was built over an older ledger and fits the present one would be built
over the present one. -/
theorem buildProof_current (hl : Chained l) (hxl : HexRows l) (hm : Chained m) (hxm : HexRows m)
    (hbuilt : buildProof (tables approved l) signer env a = .ok p)
    (hprev : p.ledger.previousHash.text = tip rowReading genesisHash (rowsOf m defaultTenant a.instanceId))
    (hseq : p.ledger.sequenceId = (rowsOf m defaultTenant a.instanceId).length + 1) :
    buildProof (tables approved m) signer env a = .ok p := by
  obtain ⟨-, hprev', hseq'⟩ := buildProof_ok (show Chained (tables approved l).ledger from hl) hxl hbuilt
  rw [← hbuilt]
  refine buildProof_congr rfl ?_
  rw [getPreviousHashAndSequence_eq (show Chained (tables approved m).ledger from hm) hxm,
    getPreviousHashAndSequence_eq (show Chained (tables approved l).ledger from hl) hxl, ← hprev', ← hseq', hprev, hseq]
  rfl

end Built

/-! ### One commit -/

section Sequential

variable {signer : Signer} {approved : Db}

/-- Decisions do not change what is approved. -/
theorem final_approvals (db : Db) (calls : List (CallEnv × DecisionArgs)) :
    (final (recordStep signer) db calls).approvals = db.approvals := by
  induction calls using List.reverseRecOn with
  | nil => rfl
  | append_singleton calls call ih =>
    rw [final_concat, ← ih]
    show (recordDecision _ signer call.1 call.2).2.approvals = _
    obtain ⟨e, he⟩ | ⟨p, -, -, hp⟩ :=
      recordDecision_cases (final (recordStep signer) db calls) signer call.1 call.2
    · rw [he]
    · rw [hp]
      rfl

theorem Sequential.nil : Sequential signer approved [] [] := ⟨rfl, rfl⟩

/-- A call whose proof would be built over the present ledger, and be appended to it,
goes to the end of the sequential run. -/
theorem Sequential.concat {returned : List Pending} {l : List LedgerRow}
    (h : Sequential signer approved returned l) {q : Pending}
    (hbuilt : buildProof (tables approved l) signer q.env q.args = .ok q.proof)
    (happ : (tables approved l).Appendable q.proof.toDict) :
    Sequential signer approved (returned ++ [q]) (l ++ [q.proof.row]) := by
  obtain ⟨hanswers, hledger⟩ := h
  generalize hdb : final (recordStep signer) (tables approved []) (returned.map Pending.call) = db at hledger
  have happrovals : db.approvals = (tables approved l).approvals := by
    rw [← hdb, final_approvals]
    rfl
  have hbuilt' : buildProof db signer q.env q.args = .ok q.proof := by
    rw [← hbuilt]
    refine buildProof_congr happrovals ?_
    unfold getPreviousHashAndSequence Db.getLatestLedgerEntry
    rw [hledger]
    rfl
  have happ' : db.Appendable q.proof.toDict := by
    unfold Db.Appendable at happ ⊢
    rw [hledger]
    exact happ
  have hstep : recordStep signer db q.call = (.ok q.proof, db.appended q.env.now.text q.proof.toDict) := by
    show recordDecision db signer q.env q.args = _
    rw [recordDecision, hbuilt']
    simp only [Db.appendLedgerEntry_of_appendable q.env.now.text happ']
  constructor
  · rw [List.map_append, List.map_singleton, outputs_concat _ rfl, hdb, hstep, hanswers, List.map_append]
    rfl
  · rw [List.map_append, List.map_singleton, final_concat, hdb, hstep, ← hledger]
    rfl

end Sequential

/-! ### The invariant -/

/-- The connection is appending the proof of the call, which was built over a former
ledger. -/
structure Appending (signer : Signer) (approved : Db) (ledger : List LedgerRow) (r : Running) (q : Pending) :
    Prop where
  call : r.call = .append q.proof.toDict
  sequenceId : r.sequenceId = q.proof.ledger.sequenceId
  built : ∃ l, l <+: ledger ∧ buildProof (tables approved l) signer q.env q.args = .ok q.proof

/-- What holds of the engines at any time. -/
structure Sound {C : Type} (signer : Signer) (approved : Db) (s : Cluster C) : Prop where
  world : Concurrent.Inv s.world
  appending : ∀ c r, (s.world.conn c).running = some r →
    ∃ q, s.pending c = some q ∧ Appending signer approved s.world.committed.ledger r q
  recorded : Inv signer (tables approved s.world.committed.ledger) (s.returned.map fun q => (q.args, q.proof))
  sequential : Sequential signer approved s.returned s.world.committed.ledger

theorem Appending.mono {signer : Signer} {approved : Db} {l m : List LedgerRow} {r : Running} {q : Pending}
    (h : Appending signer approved l r q) (hlm : l <+: m) : Appending signer approved m r q := by
  obtain ⟨k, hk, hb⟩ := h.built
  exact ⟨h.call, h.sequenceId, k, hk.trans hlm, hb⟩

section Statements

variable {C : Type} [DecidableEq C] {w : World C} {c : C}

/-- What a statement of `append_ledger_entry` can do: the call goes on with its number,
it raises, or its row is admissible after the committed ones and is committed. -/
def AppendEffect (w : World C) (now : String) (r : Running) : Concurrent.Effect C → Prop
  | .next k _ => ∃ todo, k.running = some { r with todo := todo }
  | .raised _ _ _ => True
  | .returned row tables =>
    row = r.call.row now r.sequenceId ∧ Admissible w.committed.ledger row ∧
      tables.ledger = w.committed.ledger ++ [row] ∧ Chained tables.ledger

/-- The statements of `append_ledger_entry` do. -/
theorem appendEffect (h : Concurrent.Inv w) {r : Running} {p : ProofDict} {st : Stmt} {rest : List Stmt} (now : String)
    (hr : (w.conn c).running = some r) (hcall : r.call = .append p) (hs : r.todo = st :: rest)
    (hm : st.writes = true → w.mayWrite c = true) : AppendEffect w now r (w.effect c now r rest st) := by
  have hok := h.effect now hr hs hm
  cases st with
  | selectInstance => exact ⟨_, rfl⟩
  | insertInstance => exact ⟨_, rfl⟩
  | selectMax =>
    -- only `record_transition` reads the largest number
    have hmem : Stmt.selectMax ∈ r.call.program :=
      ((h.conn c).program r hr).subset (hs ▸ List.mem_cons_self)
    rw [hcall] at hmem
    simp [Concurrent.Call.program] at hmem
  | selectConflict =>
    rw [World.effect]
    cases checkConflict ((w.conn c).sees w.committed).ledger r.call.instanceId r.call.tenant with
    | error e => trivial
    | ok _ => exact ⟨_, rfl⟩
  | selectLast =>
    rw [World.effect]
    cases checkLink ((w.conn c).sees w.committed).ledger r.call.instanceId r.sequenceId r.call.previousHash
        r.call.tenant with
    | error e => trivial
    | ok _ => exact ⟨_, rfl⟩
  | insertLedger =>
    rw [World.effect] at hok ⊢
    cases hins : insertLedger ((w.conn c).sees w.committed).ledger (r.call.row now r.sequenceId) with
    | error e => trivial
    | ok ledger =>
      simp only [hins] at hok
      obtain ⟨hadm, -⟩ := insertLedger_ok_iff.1 hins
      rw [h.sees_eq (hm rfl)] at hadm
      exact ⟨rfl, hadm, hok.1, hok.2⟩

/-- **What the next statement can do**: nothing, or one of these effects. -/
theorem statement_cases (h : Concurrent.Inv w)
    (happ : ∀ r, (w.conn c).running = some r → ∃ p, r.call = .append p) (busy : Bool) (now : String) :
    w.act (.step c busy now) = w ∨ ∃ r ef, (w.conn c).running = some r ∧ AppendEffect w now r ef ∧
      w.act (.step c busy now) = w.apply c ef := by
  rw [World.act]
  cases hr : (w.conn c).running with
  | none => exact .inl rfl
  | some r =>
    obtain ⟨p, hp⟩ := happ r hr
    simp only
    cases hs : r.todo with
    | nil => exact .inl rfl
    | cons st rest =>
      refine .inr ⟨r, _, rfl, ?_, rfl⟩
      rw [World.giveUp]
      by_cases hg : (busy || (st.writes && !w.mayWrite c)) = true
      · rw [if_pos hg]
        trivial
      · rw [if_neg hg]
        refine appendEffect h now hr hp hs fun hw => ?_
        simp only [hw, Bool.true_and, Bool.or_eq_true, Bool.not_eq_true', not_or, Bool.not_eq_false] at hg
        exact hg.2

/-- The `SELECT`s of `record_decision` leave a good world. -/
theorem afterRead_inv (h : Concurrent.Inv w) (c : C) : Concurrent.Inv (afterRead w c) :=
  h.apply (e := .next ⟨(w.conn c).afterRead w.committed, none⟩ w.writer)
    ⟨Concurrent.ConnOk.idle (h.conn c).afterRead, h.writerOk fun _ hv => Concurrent.afterRead_reading hv⟩

/-! How a statement ends a call. -/

omit [DecidableEq C] in
@[simp] theorem ended_self : ended w w = none := by simp [ended]

@[simp] theorem ended_next (k : Concurrent.Conn) (writer : Option C) :
    ended w (w.apply c (.next k writer)) = none := by simp [ended, World.apply]

@[simp] theorem ended_raised (e : PyErr) (t : Concurrent.Txn) (writer : Option C) :
    ended w (w.apply c (.raised e t writer)) = some (.raised e) := by simp [ended, World.apply]

@[simp] theorem ended_returned (row : LedgerRow) (t : Tables) :
    ended w (w.apply c (.returned row t)) = some (.returned row) := by simp [ended, World.apply]

end Statements

namespace Sound

variable {C : Type} [DecidableEq C] {signer : Signer} {approved : Db} {s : Cluster C} {c : C}

omit [DecidableEq C] in
theorem initial : Sound signer approved (Cluster.initial C) where
  world := .initial
  appending := by simp [Cluster.initial, World.initial]
  recorded := Inv.fresh.of_ledger_eq rfl
  sequential := .nil

/-- The connections of the other engines are as before, and nothing was committed. -/
theorem of_update (h : Sound signer approved s) {world : World C} (hw : Concurrent.Inv world)
    (hc : world.committed.ledger = s.world.committed.ledger) {pending : C → Option Pending}
    (hself : ∀ r, (world.conn c).running = some r →
      ∃ q, pending c = some q ∧ Appending signer approved s.world.committed.ledger r q)
    (hothers : ∀ d, d ≠ c → world.conn d = s.world.conn d ∧ pending d = s.pending d) :
    Sound signer approved ⟨world, pending, s.returned⟩ where
  world := hw
  appending d r hr := by
    rw [hc]
    by_cases hd : d = c
    · subst hd
      exact hself r hr
    · obtain ⟨hconn, hpending⟩ := hothers d hd
      simp only [hconn, hpending] at hr ⊢
      exact h.appending d r hr
  recorded := by rw [hc]; exact h.recorded
  sequential := by rw [hc]; exact h.sequential

omit [DecidableEq C] in
/-- A call commits: its proof is the one that would be built over the committed ledger. -/
theorem commit (h : Sound signer approved s) {r : Running} {q : Pending} {now : String}
    (hq : Appending signer approved s.world.committed.ledger r q)
    (hadm : Admissible s.world.committed.ledger (r.call.row now r.sequenceId))
    (hch : Chained (s.world.committed.ledger ++ [r.call.row now r.sequenceId])) :
    r.call.row now r.sequenceId = q.proof.row ∧
      buildProof (tables approved s.world.committed.ledger) signer q.env q.args = .ok q.proof ∧
      (tables approved s.world.committed.ledger).Appendable q.proof.toDict := by
  have hrow : r.call.row now r.sequenceId = q.proof.row := by
    rw [hq.call, hq.sequenceId]
    rfl
  rw [hrow] at hadm hch
  obtain ⟨l, hl, hbuilt⟩ := hq.built
  have hchl : Chained l := h.world.chained.of_prefix hl
  have hxl : HexRows l := fun r hr => h.recorded.hexRows r (hl.subset hr)
  obtain ⟨hb, -, -⟩ := buildProof_ok (show Chained (tables approved l).ledger from hchl) hxl hbuilt
  -- the committed row is the next link of its chain
  have hlinked := hch defaultTenant q.args.instanceId
  have hrows : rowsOf (s.world.committed.ledger ++ [q.proof.row]) defaultTenant q.args.instanceId =
      rowsOf s.world.committed.ledger defaultTenant q.args.instanceId ++ [q.proof.row] := by
    rw [rowsOf_append, ← hb.instanceId]
    exact congrArg _ (rowsOf_self q.proof.row)
  rw [hrows] at hlinked
  obtain ⟨-, hprev, hseq⟩ := Linked.concat.1 hlinked
  have hseq : q.proof.ledger.sequenceId =
      (rowsOf s.world.committed.ledger defaultTenant q.args.instanceId).length + 1 := by
    rw [add_comm]
    exact hseq
  refine ⟨hrow, buildProof_current hchl hxl h.world.chained h.recorded.hexRows hbuilt hprev hseq, ?_⟩
  have hchained : Chained (tables approved s.world.committed.ledger).ledger := h.world.chained
  refine (hb.appendable_iff hchained h.recorded.oneTenant hprev hseq).2 fun r hr => ?_
  exact hadm.2.2.2.2 r (by rw [← hb.instanceId] at hr; exact hr)

/-- A call is built, and starts to be appended. -/
theorem build (h : Sound signer approved s) (c : C) (env : CallEnv) (a : DecisionArgs) :
    Sound signer approved (s.act signer approved (.build c env a)) := by
  have hread := afterRead_inv h.world c
  have hothers : ∀ d, d ≠ c → (afterRead s.world c).conn d = s.world.conn d := fun d hd =>
    Function.update_of_ne hd _ _
  have hidle : ((afterRead s.world c).conn c).running = none := by simp [afterRead, World.apply]
  rw [Cluster.act]
  split_ifs with hrun
  · exact h
  cases hb : buildProof (tables approved ((s.world.conn c).sees s.world.committed).ledger) signer env a with
  | error e =>
    refine h.of_update (c := c) hread rfl (fun r hr => ?_) fun d hd => ⟨hothers d hd, rfl⟩
    rw [hidle] at hr
    cases hr
  | ok p =>
    have hstart := hread.run [.start c (.append p.toDict)]
    simp only [World.run, List.foldl_cons, List.foldl_nil] at hstart
    have hpending : ∀ d, d ≠ c → Function.update s.pending c (some ⟨env, a, p⟩) d = s.pending d := fun d hd =>
      Function.update_of_ne hd _ _
    simp only
    rw [World.act, hidle] at hstart ⊢
    cases hpre : (Concurrent.Call.append p.toDict).precheck with
    | error e =>
      rw [hpre] at hstart
      refine h.of_update (c := c) hstart rfl (fun r hr => ?_) fun d hd =>
        ⟨(Function.update_of_ne hd _ _).trans (hothers d hd), hpending d hd⟩
      simp [World.apply] at hr
    | ok _ =>
      rw [hpre] at hstart
      refine h.of_update (c := c) hstart rfl (fun r hr => ?_) fun d hd =>
        ⟨(Function.update_of_ne hd _ _).trans (hothers d hd), hpending d hd⟩
      simp only [World.apply, Function.update_self, Option.some.injEq] at hr
      subst hr
      exact ⟨_, Function.update_self _ _ _, rfl, rfl, _, Concurrent.ConnOk.sees_prefix (h.world.conn c), hb⟩

/-- The next statement is executed. -/
theorem statement (h : Sound signer approved s) (c : C) (busy : Bool) (now : String) :
    Sound signer approved (s.act signer approved (.statement c busy now)) := by
  have hw := h.world.run [.step c busy now]
  have happ : ∀ r, (s.world.conn c).running = some r → ∃ p, r.call = .append p := by
    intro r hr
    obtain ⟨q, -, hq⟩ := h.appending c r hr
    exact ⟨_, hq.call⟩
  obtain hsame | ⟨r, ef, hr, hef, hact⟩ := statement_cases h.world happ busy now
  · rw [Cluster.act, hsame]
    simpa using h
  obtain ⟨q, hpending, hq⟩ := h.appending c r hr
  simp only [World.run, List.foldl_cons, List.foldl_nil, hact] at hw
  rw [Cluster.act, hact]
  cases ef with
  | next k writer =>
    obtain ⟨todo, htodo⟩ := hef
    simp only [ended_next]
    refine h.of_update (c := c) hw rfl (fun r' hr' => ⟨q, hpending, ?_⟩) fun d hd => ?_
    · have hconn : (s.world.apply c (.next k writer)).conn c = k := Function.update_self _ _ _
      rw [hconn, htodo] at hr'
      obtain rfl := Option.some.inj hr'
      exact ⟨hq.call, hq.sequenceId, hq.built⟩
    · exact ⟨Function.update_of_ne hd _ _, rfl⟩
  | raised e t writer =>
    simp only [ended_raised]
    refine h.of_update (c := c) hw rfl (fun r' hr' => ?_) fun d hd => ?_
    · have hconn : (s.world.apply c (.raised e t writer)).conn c = ⟨t, none⟩ := Function.update_self _ _ _
      rw [hconn] at hr'
      cases hr'
    · exact ⟨Function.update_of_ne hd _ _, Function.update_of_ne hd _ _⟩
  | returned row t =>
    obtain ⟨rfl, hadm, ht, hch⟩ := hef
    obtain ⟨hrow, hbuilt, happendable⟩ := h.commit hq hadm (ht ▸ hch)
    rw [hrow] at ht hw ⊢
    simp only [ended_returned, hpending, Option.toList_some]
    refine ⟨hw, fun d r' hr' => ?_, ?_, ?_⟩
    · by_cases hd : d = c
      · subst hd
        have hconn : (s.world.apply d (.returned q.proof.row t)).conn d = ⟨.closed, none⟩ := Function.update_self _ _ _
        rw [hconn] at hr'
        cases hr'
      · have hconn : (s.world.apply c (.returned q.proof.row t)).conn d = s.world.conn d := Function.update_of_ne hd _ _
        rw [hconn] at hr'
        obtain ⟨q', hpending', hq'⟩ := h.appending d r' hr'
        refine ⟨q', (Function.update_of_ne hd _ _).trans hpending', hq'.mono ?_⟩
        exact ht ▸ List.prefix_append _ _
    · have hchained : Chained (tables approved s.world.committed.ledger).ledger := h.world.chained
      have hb : Built signer q.args q.proof := (buildProof_ok hchained h.recorded.hexRows hbuilt).1
      refine ⟨?_, fun ap hap => ?_, hch⟩
      · rw [List.map_append, List.map_append, ← h.recorded.ledger]
        exact ht
      · rw [List.map_append, List.mem_append] at hap
        obtain hap | hap := hap
        · exact h.recorded.built ap hap
        · obtain rfl := List.mem_singleton.1 hap
          exact hb
    · show Sequential signer approved (s.returned ++ [q]) t.ledger
      rw [ht]
      exact h.sequential.concat hbuilt happendable

/-- The process of an engine ends. -/
theorem close (h : Sound signer approved s) (c : C) : Sound signer approved (s.act signer approved (.close c)) := by
  have hw := h.world.run [.close c]
  refine h.of_update (c := c) hw rfl (fun r hr => ?_) fun d hd => ?_
  · have hconn : (s.world.run [.close c]).conn c = ⟨.closed, none⟩ := Function.update_self _ _ _
    rw [hconn] at hr
    cases hr
  · exact ⟨Function.update_of_ne hd _ _, Function.update_of_ne hd _ _⟩

/-- **Every run keeps the invariant.** -/
theorem run (h : Sound signer approved s) (steps : List (Step C)) :
    Sound signer approved (s.run signer approved steps) := by
  induction steps generalizing s with
  | nil => exact h
  | cons step steps ih =>
    refine ih ?_
    cases step with
    | build c env args => exact h.build c env args
    | statement c busy now => exact h.statement c busy now
    | close c => exact h.close c

end Sound

/-! ### A call by itself -/

section Alone

variable {C : Type} [DecidableEq C] {signer : Signer} {approved : Db} {s : Cluster C} {c : C} {r : Running}
  {st : Stmt} {rest : List Stmt} {now : String}

/-- A statement after which the call goes on. -/
theorem act_next {k : Concurrent.Conn} {writer : Option C} (hr : (s.world.conn c).running = some r)
    (hs : r.todo = st :: rest) (hg : s.world.giveUp c false st = none)
    (he : s.world.effect c now r rest st = .next k writer) :
    s.act signer approved (.statement c false now) = { s with world := s.world.apply c (.next k writer) } := by
  have hact : s.world.act (.step c false now) = s.world.apply c (.next k writer) := by
    simp only [World.act, hr, hs, hg, he, Option.getD_none]
  rw [Cluster.act, hact]
  simp only [ended_next]

/-- The statement with which the call returns. -/
theorem act_returned {row : LedgerRow} {t : Tables} (hr : (s.world.conn c).running = some r)
    (hs : r.todo = st :: rest) (hg : s.world.giveUp c false st = none)
    (he : s.world.effect c now r rest st = .returned row t) :
    s.act signer approved (.statement c false now) =
      ⟨s.world.apply c (.returned row t), Function.update s.pending c none, s.returned ++ (s.pending c).toList⟩ := by
  have hact : s.world.act (.step c false now) = s.world.apply c (.returned row t) := by
    simp only [World.act, hr, hs, hg, he, Option.getD_none]
  rw [Cluster.act, hact]
  simp only [ended_returned]

/-- An engine without a call does nothing. -/
theorem act_idle (hr : (s.world.conn c).running = none) :
    s.act signer approved (.statement c false now) = s := by
  rw [Cluster.act, World.act, hr]
  simp

/-- Engine `c` is on its way with call `q`; everything else is as in `s`. -/
structure Going (s : Cluster C) (c : C) (q : Pending) (k : Concurrent.Conn) (writer : Option C) (t : Cluster C) :
    Prop where
  conn : t.world.conn c = k
  others : ∀ d, d ≠ c → t.world.conn d = s.world.conn d
  committed : t.world.committed = s.world.committed
  writer : t.world.writer = writer
  returned : t.returned = s.returned
  pending : t.pending c = some q

theorem Going.next {q : Pending} {k k' : Concurrent.Conn} {writer writer' : Option C} {t : Cluster C}
    (h : Going s c q k writer t) (hr : k.running = some r) (hs : r.todo = st :: rest)
    (hg : t.world.giveUp c false st = none) (he : t.world.effect c now r rest st = .next k' writer') :
    Going s c q k' writer' (t.act signer approved (.statement c false now)) := by
  rw [act_next (h.conn ▸ hr) hs hg he]
  exact ⟨Function.update_self _ _ _, fun d hd => (Function.update_of_ne hd _ _).trans (h.others d hd),
    h.committed, rfl, h.returned, h.pending⟩

/-- The call with the statements to come. -/
def Pending.running (q : Pending) (todo : List Stmt) : Running :=
  ⟨.append q.proof.toDict, q.proof.ledger.sequenceId, todo⟩

section Running

variable (q : Pending) (todo : List Stmt)

@[simp] theorem Pending.running_tenant : (q.running todo).call.tenant = defaultTenant := rfl
@[simp] theorem Pending.running_instanceId : (q.running todo).call.instanceId = q.proof.instanceId := rfl
@[simp] theorem Pending.running_previousHash :
    (q.running todo).call.previousHash = q.proof.ledger.previousHash.text := rfl
@[simp] theorem Pending.running_sequenceId : (q.running todo).sequenceId = q.proof.ledger.sequenceId := rfl

end Running

/-- What a call by itself leaves. -/
structure Recorded (s : Cluster C) (c : C) (q : Pending) (t : Cluster C) : Prop where
  returned : t.returned = s.returned ++ [q]
  ledger : t.world.committed.ledger = s.world.committed.ledger ++ [q.proof.row]
  conn : t.world.conn c = ⟨.closed, none⟩
  others : ∀ d, d ≠ c → t.world.conn d = s.world.conn d
  writer : t.world.writer = none

/-- The insert of the ledger row, with which the call returns. -/
theorem Going.insertLedger {q : Pending} {k : Concurrent.Conn} {writer : Option C} {t : Cluster C}
    (h : Going s c q k writer t) (hr : k.running = some (q.running [.insertLedger]))
    (hg : t.world.giveUp c false .insertLedger = none)
    (hsees : (k.sees t.world.committed).ledger = s.world.committed.ledger)
    (hadm : Admissible s.world.committed.ledger q.proof.row) :
    Recorded s c q (t.act signer approved (.statement c false now)) := by
  have hins : ProvableAi.insertLedger (k.sees t.world.committed).ledger q.proof.row =
      .ok (s.world.committed.ledger ++ [q.proof.row]) := insertLedger_ok_iff.2 ⟨hsees ▸ hadm, by rw [hsees]⟩
  have he : t.world.effect c now (q.running [.insertLedger]) [] .insertLedger =
      .returned q.proof.row { k.sees t.world.committed with ledger := s.world.committed.ledger ++ [q.proof.row] } := by
    have hrow : (Concurrent.Call.append q.proof.toDict).row now q.proof.ledger.sequenceId = q.proof.row := rfl
    simp only [World.effect, h.conn, Pending.running, hrow, hins]
  rw [act_returned (h.conn ▸ hr) rfl hg he, h.pending]
  exact ⟨congrArg (· ++ [q]) h.returned, rfl, Function.update_self _ _ _,
    fun d hd => (Function.update_of_ne hd _ _).trans (h.others d hd), rfl⟩

omit [DecidableEq C] in
/-- The checks of a call over the committed ledger. -/
theorem Going.checks {p : ProofV1} (happ : (tables approved s.world.committed.ledger).Appendable p.toDict) :
    checkConflict s.world.committed.ledger p.instanceId defaultTenant = .ok () ∧
      checkLink s.world.committed.ledger p.instanceId p.ledger.sequenceId p.ledger.previousHash.text
        defaultTenant = .ok () := by
  have hvalid : validateChainIntegrity s.world.committed.ledger p.instanceId p.ledger.sequenceId
      p.ledger.previousHash.text defaultTenant = .ok () := happ.2.1
  rw [validateChainIntegrity] at hvalid
  cases hc : checkConflict s.world.committed.ledger p.instanceId defaultTenant with
  | error e => rw [hc] at hvalid; cases hvalid
  | ok _ => rw [hc] at hvalid; exact ⟨rfl, hvalid⟩

/-- The call starts. -/
theorem going_build (hidle : s.world.conn c = ⟨.closed, none⟩) (hwriter : s.world.writer = none)
    {q : Pending} (hbuilt : buildProof (tables approved s.world.committed.ledger) signer q.env q.args = .ok q.proof)
    (hsig : q.proof.toDict.signatureValue.length = 128) :
    Going s c q ⟨.closed, some (q.running
        [.selectConflict, .selectLast, .selectInstance, .insertInstance, .insertLedger])⟩
      none (s.act signer approved (.build c q.env q.args)) := by
  have hpre : (Concurrent.Call.append q.proof.toDict).precheck = .ok () := if_pos hsig
  have hread : (afterRead s.world c).conn c = ⟨.closed, none⟩ := by
    rw [afterRead, hidle]
    exact Function.update_self _ _ _
  have hsees : ((s.world.conn c).sees s.world.committed).ledger = s.world.committed.ledger := by
    rw [hidle]
    rfl
  have hrun : ¬ (s.world.conn c).running.isSome = true := by simp [hidle]
  rw [Cluster.act, if_neg hrun, hsees, hbuilt]
  simp only [World.act, hread, hpre]
  refine ⟨Function.update_self _ _ _, fun d hd => ?_, rfl, hwriter, rfl, Function.update_self _ _ _⟩
  exact (Function.update_of_ne hd _ _).trans (Function.update_of_ne hd _ _)

/-- **A call by itself returns.**  If no transaction is open, a decision that would be
built and appended over the committed ledger is, within five statements. -/
theorem record_alone (hidle : s.world.conn c = ⟨.closed, none⟩) (hwriter : s.world.writer = none)
    {q : Pending} (hbuilt : buildProof (tables approved s.world.committed.ledger) signer q.env q.args = .ok q.proof)
    (happ : (tables approved s.world.committed.ledger).Appendable q.proof.toDict) (now : String) :
    Recorded s c q (s.run signer approved (.build c q.env q.args :: List.replicate 5 (.statement c false now))) := by
  obtain ⟨hconflict, hlink⟩ := Going.checks happ
  have hadm : Admissible s.world.committed.ledger q.proof.row := happ.2.2
  have h₀ := going_build hidle hwriter hbuilt happ.1
  simp only [Cluster.run, List.replicate, List.foldl_cons, List.foldl_nil]
  generalize s.act signer approved (.build c q.env q.args) = t₀ at h₀ ⊢
  -- the two checks
  have h₁ : Going s c q ⟨.closed, some (q.running [.selectLast, .selectInstance, .insertInstance, .insertLedger])⟩
      none (t₀.act signer approved (.statement c false now)) := by
    refine h₀.next rfl rfl rfl ?_
    simp only [World.effect, h₀.conn, h₀.committed, h₀.writer, Concurrent.Conn.sees, Concurrent.Conn.afterRead,
      Pending.running_tenant, Pending.running_instanceId, hconflict]
    rfl
  generalize t₀.act signer approved (.statement c false now) = t₁ at h₁ ⊢
  have h₂ : Going s c q ⟨.closed, some (q.running [.selectInstance, .insertInstance, .insertLedger])⟩
      none (t₁.act signer approved (.statement c false now)) := by
    refine h₁.next rfl rfl rfl ?_
    simp only [World.effect, h₁.conn, h₁.committed, h₁.writer, Concurrent.Conn.sees, Concurrent.Conn.afterRead,
      Pending.running_tenant, Pending.running_instanceId, Pending.running_previousHash,
      Pending.running_sequenceId, hlink]
    rfl
  generalize t₁.act signer approved (.statement c false now) = t₂ at h₂ ⊢
  cases hfound : hasInstance s.world.committed.instances defaultTenant q.proof.instanceId with
  | true =>
    -- the instance has a row: the next statement is the last one
    have h₃ : Going s c q ⟨.closed, some (q.running [.insertLedger])⟩
        none (t₂.act signer approved (.statement c false now)) := by
      refine h₂.next rfl rfl rfl ?_
      simp only [World.effect, h₂.conn, h₂.committed, h₂.writer, Concurrent.Conn.sees, Concurrent.Conn.afterRead,
        Pending.running_tenant, Pending.running_instanceId, hfound]
      rfl
    generalize t₂.act signer approved (.statement c false now) = t₃ at h₃ ⊢
    have h₄ : Recorded s c q (t₃.act signer approved (.statement c false now)) := by
      refine h₃.insertLedger rfl ?_ ?_ hadm
      · simp [World.giveUp, World.mayWrite, h₃.writer, h₃.conn]
      · rw [h₃.committed]
        rfl
    rw [act_idle (by rw [h₄.conn])]
    exact h₄
  | false =>
    have h₃ : Going s c q ⟨.closed, some (q.running [.insertInstance, .insertLedger])⟩
        none (t₂.act signer approved (.statement c false now)) := by
      refine h₂.next rfl rfl rfl ?_
      simp only [World.effect, h₂.conn, h₂.committed, h₂.writer, Concurrent.Conn.sees, Concurrent.Conn.afterRead,
        Pending.running_tenant, Pending.running_instanceId, hfound]
      rfl
    generalize t₂.act signer approved (.statement c false now) = t₃ at h₃ ⊢
    obtain ⟨view, hview, h₄⟩ : ∃ view : Tables, view.ledger = s.world.committed.ledger ∧
        Going s c q ⟨.reading view, some (q.running [.insertLedger])⟩ (some c)
          (t₃.act signer approved (.statement c false now)) := by
      refine ⟨_, ?_, h₃.next rfl rfl ?_ rfl⟩
      · rw [h₃.conn, h₃.committed]
        rfl
      · simp [World.giveUp, World.mayWrite, h₃.writer, h₃.conn]
    generalize t₃.act signer approved (.statement c false now) = t₄ at h₄ ⊢
    refine h₄.insertLedger rfl ?_ hview hadm
    simp [World.giveUp, World.mayWrite, h₄.writer, h₄.conn]

end Alone

/-! ### The engines as one -/

section Runs

variable {C : Type} [DecidableEq C] (signer : Signer) (approved : Db)

/-- **Engines side by side are one engine.**  After any steps, the calls that returned,
in the order of their commits, are a sequential run: called one after the other on one
engine with the same approvals and an empty ledger, they return the same proofs, and the
ledger they leave is the committed one.  The rows of calls that raised or did not end
are not among them. -/
theorem engines_linearizable (steps : List (Step C)) :
    let s := (Cluster.initial C).run signer approved steps
    outputs (recordStep signer) (fun _ => true) (tables approved []) (s.returned.map Pending.call) =
        s.returned.map (fun q => (q.call, .ok q.proof)) ∧
      (final (recordStep signer) (tables approved []) (s.returned.map Pending.call)).ledger =
        s.world.committed.ledger := by
  have h : Sound signer approved _ := Sound.initial.run steps
  exact ⟨h.sequential.answers, h.sequential.ledger⟩

/-- **The verifier on what several engines wrote.**  The chain of an instance is read
back and accepted if and only if a call on it returned and none of those that did was
strict with a seed. -/
theorem engines_verifyChain_iff (py : Pydantic) {ed : Ed25519} (hs : signer.Honest ed) (now i : String)
    (steps : List (Step C)) :
    let s := (Cluster.initial C).run signer approved steps
    ∃ ds, ((tables approved s.world.committed.ledger).getLedgerChain i defaultTenant).mapM
        (fun r => loads r.proofJson) = some ds ∧
      ((verifyChain py ed now ds).valid = true ↔
        (∃ q ∈ s.returned, q.args.instanceId = i) ∧
          ∀ q ∈ s.returned, q.args.instanceId = i → ¬ SeededStrict q.args) := by
  intro s
  have h : Sound signer approved s := Sound.initial.run steps
  obtain ⟨ds, hds, hiff⟩ := h.recorded.verifyChain_iff py hs now i
  refine ⟨ds, hds, hiff.trans ?_⟩
  simp only [onInstance, ne_eq, List.filter_eq_nil_iff, List.mem_filter, decide_eq_true_eq, and_imp,
    List.forall_mem_map, not_forall, not_not, exists_prop]

end Runs

/-! Two engines make the same decision; the second one records it while the first one
is about to. -/

/-- The steps. -/
def race (env : CallEnv) (a : DecisionArgs) (now : String) : List (Step Bool) :=
  .build false env a :: .build true env a :: List.replicate 5 (.statement true false now)

/-- The second engine returns. -/
theorem race_returned {signer : Signer} {approved : Db} {q : Pending}
    (hbuilt : buildProof (tables approved []) signer q.env q.args = .ok q.proof) (now : String) :
    ((Cluster.initial Bool).run signer approved (race q.env q.args now)).returned = [q] := by
  have hinv : Inv signer (tables approved []) [] := Inv.fresh.of_ledger_eq rfl
  obtain ⟨hb, hprev, hseq⟩ := buildProof_ok hinv.chained hinv.hexRows hbuilt
  have happ : (tables approved []).Appendable q.proof.toDict :=
    (hb.appendable_iff hinv.chained hinv.oneTenant hprev hseq).2 (by simp [tables, rowsOf])
  have hstart := going_build (s := Cluster.initial Bool) (c := false) (q := q) rfl rfl hbuilt happ.1
  rw [race, Cluster.run, List.foldl_cons]
  generalize (Cluster.initial Bool).act signer approved (.build false q.env q.args) = s at hstart ⊢
  have hcommitted : s.world.committed.ledger = [] := congrArg Tables.ledger hstart.committed
  rw [← hcommitted] at hbuilt happ
  have hrecorded := record_alone (c := true) (hstart.others true (by decide)) hstart.writer hbuilt happ now
  rw [← Cluster.run, hrecorded.returned, hstart.returned]
  rfl

/-- The loan. -/
def loanRace : List (Step Bool) :=
  race loanEnv (loanCall "pending" "approved" none) "2026-01-01T00:00:00Z"

/-- What the two engines wrote is accepted. -/
theorem loanRace_accepted :
    (∃ p, ((Cluster.initial Bool).run loanSigner approved.db loanRace).returned =
      [⟨loanEnv, loanCall "pending" "approved" none, p⟩]) ∧
    ∃ ds, ((tables approved.db ((Cluster.initial Bool).run loanSigner approved.db loanRace).world.committed.ledger).getLedgerChain
        "loan_1" defaultTenant).mapM (fun r => loads r.proofJson) = some ds ∧
      (verifyChain plainPydantic loanVerifier "2026-02-01T00:00:00Z" ds).valid = true := by
  obtain ⟨p, hbuilt, -, -⟩ := loanRun_records none
  have hp : ((Cluster.initial Bool).run loanSigner approved.db loanRace).returned =
      [⟨loanEnv, loanCall "pending" "approved" none, p⟩] :=
    @race_returned loanSigner approved.db ⟨loanEnv, loanCall "pending" "approved" none, p⟩ hbuilt "2026-01-01T00:00:00Z"
  obtain ⟨ds, hds, hiff⟩ := engines_verifyChain_iff loanSigner approved.db plainPydantic loanSigner_honest
    "2026-02-01T00:00:00Z" "loan_1" loanRace
  refine ⟨⟨p, hp⟩, ds, hds, hiff.2 ?_⟩
  rw [hp]
  simp [loanCall, SeededStrict]

end Engines
end ProvableAi
