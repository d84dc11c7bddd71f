/-
# What a client was told

A client of `server/main.py` knows of a decision what `POST /decision` answered:
status 200 with the proof's id and number, or an error.  `acknowledged_served`: an
error has left the server as it was; what was acknowledged is in the ledger, and
every later `GET /proof/{id}`, `GET /chain/{id}` and `GET /proof/export/{id}` serves
that proof, whatever requests came in between.
-/

import ProvableAi.Server.Isolation
import ProvableAi.Package.OnChain

namespace ProvableAi

open HashChain

namespace Server

/-- A server serves a proof: alone, in the chain of its instance, and in a package that
`verify_package` accepts. -/
structure Serves (signer : Signer) (ed : Ed25519) (s : Server) (p : ProofV1) : Prop where
  getProof : ∀ q : Request, q.endpoint = .proof p.instanceId (some p.ledger.sequenceId) true →
    (s.step signer q).1 = .json 200 (.obj [("proof_id", .str p.proofId), ("instance_id", .str p.instanceId),
      ("sequence_id", .int p.ledger.sequenceId), ("proof", p.document), ("trace_id", .str q.traceId)])
  getChain : ∀ q : Request, q.endpoint = .chain p.instanceId true → ∃ content items,
    (s.step signer q).1 = .json 200 content ∧ content.get? "chain" = some (.arr items) ∧
      ∃ k : ℕ, p.ledger.sequenceId = 1 + k ∧ items[k]? = some (chainItem p.row)
  exportPackage : ∀ q : Request, q.endpoint = .exportPackage p.instanceId true → q.env.signFault = none →
    ∃ package entries cs m, (s.step signer q).1 = .json 200 package ∧
      (proofBlock package).get? "ledger" = some (.arr entries) ∧
      (∃ k : ℕ, p.ledger.sequenceId = 1 + k ∧ entries[k]? = some p.document) ∧
      verifyPackage ed package = .ok (true, cs, m)

variable {signer : Signer} {ed : Ed25519} {s : Server}

/-! ### What is in the ledger is served -/

theorem Sound.onChain (h : s.Sound signer) (i : String) : ∃ ps, OnChain s.engine.db i ps := by
  obtain ⟨acc, hinv, -⟩ := h
  exact ⟨_, hinv.onChain i⟩

/-- Every role may read. -/
theorem step_eq_handle {r : Request} {e : Endpoint} (hr : r.endpoint = e) (he : e.reads.isSome = true) :
    s.step signer r = s.handle signer r := by
  refine if_pos ?_
  rw [hr]
  cases e with
  | setup what => cases he
  | decision body => cases he
  | _ => cases r.role <;> simp [Endpoint.allowed]

/-- The rows of a sound server are served. -/
theorem Sound.serves (h : s.Sound signer) (hs : signer.Honest ed) {p : ProofV1} (hwf : p.dump.wf = true)
    (hp : p.row ∈ s.engine.db.ledger) : Serves signer ed s p := by
  obtain ⟨ps, hps⟩ := h.onChain p.instanceId
  have hone : OneTenant s.engine.db.ledger := by
    obtain ⟨acc, hinv, -⟩ := h
    exact hinv.oneTenant
  obtain ⟨k, q, hk, hrow, hseq⟩ := hps.place (mem_rowsOf.2 ⟨hp, hone _ hp, rfl⟩)
  have hq := hps.wf q (List.mem_of_getElem? hk)
  have hdoc := document_of_row hwf hq hrow
  have hpseq : p.ledger.sequenceId = q.ledger.sequenceId := (congrArg LedgerRow.sequenceId hrow).symm
  have hne : ps ≠ [] := by
    rintro rfl
    cases hk
  constructor
  · intro r hr
    have hentry := hps.getLedgerEntry hk
    rw [← hpseq, hrow] at hentry
    have hdata : p.row.proofData = p.document := by
      rw [LedgerRow.proofData, if_pos (p.hasProof_row hwf), p.loads_row hwf]
      rfl
    rw [step_eq_handle hr rfl, handle, hr]
    simp only [ProvableAi.getProof, hentry, hdata, if_true]
    rfl
  · intro r hr
    rw [step_eq_handle hr rfl, handle, hr]
    obtain ⟨first, hfirst⟩ : ∃ first, (ps.map ProofV1.row).head? = some first :=
      Option.isSome_iff_exists.1 (by simpa using hne)
    obtain ⟨last, hlast⟩ : ∃ last, (ps.map ProofV1.row).getLast? = some last :=
      Option.isSome_iff_exists.1 (by simpa using hne)
    have hfull : ∃ n, ProvableAi.getChain s.engine.db r.traceId p.instanceId true =
        .json 200 (.obj [("instance_id", .str p.instanceId), ("chain_length", .int n),
          ("chain", .arr ((ps.map ProofV1.row).map chainItem)), ("trace_id", .str r.traceId)]) := by
      refine ⟨(ps.map ProofV1.row).length, ?_⟩
      rw [ProvableAi.getChain, hps.chain]
      simp only [hfirst, hlast, if_true]
    obtain ⟨n, hn⟩ := hfull
    refine ⟨_, _, hn, rfl, k, hpseq.trans hseq, ?_⟩
    rw [List.getElem?_map, List.getElem?_map, hk, Option.map_some, Option.map_some, hrow]
  · intro r hr hf
    obtain ⟨cs, m, hv⟩ := hps.accepted hs hne
    obtain ⟨acc, hinv, -⟩ := h
    obtain ⟨last, hlast⟩ : ∃ last, (rowsOf s.engine.db.ledger defaultTenant p.instanceId).getLast? = some last :=
      Option.isSome_iff_exists.1 (by simpa [hps.rows] using hne)
    have hanswer := (exportProofPackage_eq hinv r.env r.traceId p.instanceId true).1
    rw [hlast, hps.signedExport_eq hf] at hanswer
    refine ⟨chainPackage signer p.instanceId ps, ps.map ProofV1.document, cs, m, ?_, rfl, ⟨k, hpseq.trans hseq, ?_⟩, hv⟩
    · rw [step_eq_handle hr rfl, handle, hr]
      exact hanswer
    · rw [List.getElem?_map, hk, Option.map_some, hdoc]

/-! ### What is answered -/

/-- An error of the handler has an error's status. -/
theorem decisionError_status (traceId : String) (e : PyErr) :
    ∃ status content, decisionError traceId e = .json status content ∧ 400 ≤ status := by
  rw [decisionError]
  cases e.family with
  | governance => exact ⟨422, _, rfl, by decide⟩
  | signing => exact ⟨503, _, rfl, by decide⟩
  | chain => exact ⟨409, _, rfl, by decide⟩
  | zorynex => exact ⟨400, _, rfl, by decide⟩
  | other => exact ⟨500, _, rfl, by decide⟩

/-- A body that is not resolved is answered with an error. -/
theorem resolve_status {body : DecisionRequest} {db : Db} {response : Response} (h : body.resolve db = .error response) :
    ∃ status content, response = .json status content ∧ 400 ≤ status := by
  rw [DecisionRequest.resolve] at h
  split at h
  · exact ⟨400, _, (Except.error.inj h).symm, by decide⟩
  · split at h
    · exact ⟨422, _, (Except.error.inj h).symm, by decide⟩
    · exact ⟨422, _, (Except.error.inj h).symm, by decide⟩
    · exact ⟨422, _, (Except.error.inj h).symm, by decide⟩
    · cases h

/-- **One `POST /decision`, as the client sees it.** -/
theorem postDecision_answer {db : Db} {acc : List (DecisionArgs × ProofV1)} (h : Inv signer db acc) (env : CallEnv)
    (traceId : String) (body : DecisionRequest) :
    (∃ p, postDecision signer env traceId db body = (decisionResponse traceId p, db.appended env.now.text p.toDict, true) ∧
      p.instanceId = body.instanceId ∧ p.dump.wf = true) ∨
    ∃ status content, postDecision signer env traceId db body = (.json status content, db, false) ∧ 400 ≤ status := by
  rw [postDecision]
  cases ha : body.resolve db with
  | error response =>
    obtain ⟨status, content, rfl, hstatus⟩ := resolve_status ha
    exact .inr ⟨status, content, rfl, hstatus⟩
  | ok a =>
    obtain ⟨e, he⟩ | ⟨p, hp, hnext, -, -⟩ := h.record_cases env a
    · obtain ⟨status, content, heq, hstatus⟩ := decisionError_status traceId e
      simp only [he, heq]
      exact .inr ⟨status, content, rfl, hstatus⟩
    · have hb := hnext.built (a, p) (by simp)
      simp only [hp]
      exact .inl ⟨p, rfl, hb.instanceId.trans (resolve_instanceId ha), hb.wf⟩

/-- The ledger only grows. -/
theorem Sound.ledger_grows (h : s.Sound signer) (rs : List Request) :
    s.engine.db.ledger <+: (Server.after signer s rs).engine.db.ledger := by
  induction rs generalizing s with
  | nil => exact List.prefix_rfl
  | cons r rs ih =>
    have hl := step_leaves h r
    exact (hl.ledger ▸ List.prefix_append ..).trans (ih hl.sound)

/-- **What was acknowledged is served.**  After any requests, a `POST /decision` is
answered with a proof of its instance, which is then the last row of the ledger and
is served for ever; or with an error, and the server is as it was.  The other
requests leave the ledger alone. -/
theorem acknowledged_served (hs : signer.Honest ed) (now : String) (models agents policies : List String)
    (earlier : List Request) (r : Request) :
    let s := after signer (start now models agents policies) earlier
    (∀ body, r.endpoint = .decision body →
      (∃ p, (s.step signer r).1 = decisionResponse r.traceId p ∧ p.instanceId = body.instanceId ∧
        (s.step signer r).2.engine.db.ledger = s.engine.db.ledger ++ [p.row] ∧
        ∀ later, Serves signer ed (after signer (s.step signer r).2 later) p) ∨
      ∃ status content, (s.step signer r).1 = .json status content ∧ 400 ≤ status ∧ (s.step signer r).2 = s) ∧
    ((∀ body, r.endpoint ≠ .decision body) → (s.step signer r).2.engine.db.ledger = s.engine.db.ledger) := by
  intro s
  have hsound : s.Sound signer := (start_sound ..).after earlier
  have hleaves := step_leaves hsound r
  constructor
  · intro body hr
    by_cases hrole : r.role ∈ r.endpoint.allowed
    · obtain ⟨acc, hinv, -⟩ := hsound
      obtain ⟨p, hp, hi, hwf⟩ | ⟨status, content, hp, hstatus⟩ := postDecision_answer hinv r.env r.traceId body
      · left
        have hstep : s.step signer r = (decisionResponse r.traceId p,
            ⟨{ s.engine with db := s.engine.db.appended r.env.now.text p.toDict },
              s.decided ++ [(r.tenantId, body.instanceId)]⟩) := by
          rw [step, if_pos hrole, handle, hr]
          simp only [hp, if_true]
        have hsound' := hleaves.sound
        rw [hstep] at hsound' ⊢
        refine ⟨p, rfl, hi, rfl, fun later => (hsound'.after later).serves hs hwf ?_⟩
        exact (hsound'.ledger_grows later).subset (List.mem_append_right _ (List.mem_singleton_self _))
      · right
        refine ⟨status, content, ?_, hstatus, ?_⟩
        · rw [step, if_pos hrole, handle, hr]
          simp only [hp]
        · rw [step, if_pos hrole, handle, hr]
          simp only [hp]
          rfl
    · right
      rw [step, if_neg hrole]
      exact ⟨403, _, rfl, by decide, rfl⟩
  · intro hr
    have hnone : s.added signer r = none := by
      by_contra hsome
      obtain ⟨p, hp⟩ := Option.ne_none_iff_exists'.1 hsome
      obtain ⟨body, he, -⟩ := added_eq_some hp
      exact hr body he
    rw [hleaves.ledger, hnone]
    simp

/-- The loan's decision, acknowledged to one tenant and then read by another. -/
theorem acknowledged_served_loan :
    ∃ p : ProofV1, (loanServer.step loanSigner (postLoan "acme")).1 = decisionResponse "trace-1" p ∧
      p.instanceId = "loan_1" ∧
      Serves loanSigner loanVerifier
        (after loanSigner (loanServer.step loanSigner (postLoan "acme")).2 [readChain "rival" "loan_1"]) p := by
  obtain ⟨q, -, hleaves⟩ := postLoan_leaves "acme"
  have hledger := hleaves.ledger
  have hstart : loanServer.engine.db.ledger = [] := start_ledger ..
  rcases (acknowledged_served loanSigner_honest "2026-01-01T00:00:00Z" ["v1.0.0"] ["a1"] ["p1"] []
    (postLoan "acme")).1 loanBody rfl with ⟨p, hanswer, hi, -, hserves⟩ | ⟨_, _, -, -, hsame⟩
  · exact ⟨p, hanswer, hi, hserves _⟩
  · rw [show (loanServer.step loanSigner (postLoan "acme")).2 = loanServer from hsame, hstart] at hledger
    cases hledger

end Server

end ProvableAi
