/-
# Rate limiting

`server/rate_limit.py`: a `_Window` is a sliding window of 60 seconds, and
`RateLimiter.check` asks three of them one after the other: that of the server,
that of the tenant and, for a write, the tenant's window of writes.  Each reads
the clock anew, and a reading is an exact rational.

One window alone does what it says (`window_correct`).  The three together count a request
in the first window before the second one can refuse it, so what a tenant sends
beyond its own limit still fills the window of the server
(`quota_kept_iff`).
-/

import ProvableAi.Audit.Body
import ProvableAi.Lib.Lockstep
import ProvableAi.Lib.SlidingWindow
import Mathlib.Algebra.Order.Field.Rat
import Mathlib.Algebra.Order.Floor.Ring
import Mathlib.Data.List.Induction
import Mathlib.Data.Rat.Floor
import Mathlib.Tactic.Linarith
import Mathlib.Tactic.NormNum

namespace ProvableAi
namespace RateLimit

open Lockstep SlidingWindow

/-! ### One window -/

/-- Why a request is not let through. -/
inductive Refusal where
  /-- `self.timestamps[0]` of an empty list: a limit below `1`. -/
  | indexError
  /-- `HTTPException` 429. -/
  | tooMany (error message : String) (limit retryAfter : ℤ) (scope : String) (tenantId : Option PyStr)
  deriving DecidableEq

/-- `int(60 - (now - oldest)) + 1`. -/
def retryAfter (now oldest : ℚ) : ℤ := (60 - (now - oldest)).num.tdiv (60 - (now - oldest)).den + 1

/-- `_Window.count_and_check` at a reading of the clock, and the time stamps after it. -/
def countAndCheck (limit : ℤ) (timestamps : List ℚ) (now : ℚ) : Except Refusal (Bool × ℤ) × List ℚ :=
  let kept := live 60 now timestamps
  if limit ≤ kept.length then
    match kept with
    | [] => (.error .indexError, kept)
    | oldest :: _ => (.ok (false, retryAfter now oldest), kept)
  else (.ok (true, 0), kept ++ [now])

/-- At the reading no request is let through. -/
def Full (limit : ℤ) (timestamps : List ℚ) (now : ℚ) : Prop := limit ≤ (live 60 now timestamps).length

instance (limit : ℤ) (timestamps : List ℚ) (now : ℚ) : Decidable (Full limit timestamps now) :=
  inferInstanceAs (Decidable (_ ≤ _))

section

variable {limit : ℤ} {timestamps : List ℚ} {now : ℚ}

theorem countAndCheck_full (h : Full limit timestamps now) : (∀ retry, (countAndCheck limit timestamps now).1 ≠ .ok (true, retry)) ∧
    (countAndCheck limit timestamps now).2 = live 60 now timestamps := by
  rw [countAndCheck, if_pos (show limit ≤ _ from h)]
  cases live 60 now timestamps <;> simp

theorem countAndCheck_room (h : ¬ Full limit timestamps now) :
    countAndCheck limit timestamps now = (.ok (true, 0), live 60 now timestamps ++ [now]) := if_neg h

theorem countAndCheck_admits_iff :
    (countAndCheck limit timestamps now).1 = .ok (true, 0) ↔ ¬ Full limit timestamps now := by
  by_cases h : Full limit timestamps now
  · exact iff_of_false ((countAndCheck_full h).1 0) (not_not.2 h)
  · rw [countAndCheck_room h]
    exact iff_of_true rfl h

/-- What a refusal says. -/
theorem countAndCheck_refuses {retry : ℤ} (h : (countAndCheck limit timestamps now).1 = .ok (false, retry)) :
    Full limit timestamps now ∧
      ∃ oldest rest, live 60 now timestamps = oldest :: rest ∧ retry = retryAfter now oldest := by
  by_cases hfull : Full limit timestamps now
  · refine ⟨hfull, ?_⟩
    rw [countAndCheck, if_pos (show limit ≤ _ from hfull)] at h
    cases hkept : live 60 now timestamps with
    | nil => simp [hkept] at h
    | cons oldest rest =>
      simp only [hkept, Except.ok.injEq, Prod.mk.injEq, true_and] at h
      exact ⟨oldest, rest, rfl, h.symm⟩
  · rw [countAndCheck_room hfull] at h
    simp at h

end

/-- `int(q) + 1` of a number that is not negative is the next integer. -/
theorem retryAfter_eq {now oldest : ℚ} (h : 0 ≤ 60 - (now - oldest)) : retryAfter now oldest = ⌊60 - (now - oldest)⌋ + 1 := by
  rw [retryAfter, Rat.floor_def', Int.tdiv_eq_ediv_of_nonneg (Rat.num_nonneg.2 h)]

/-! ### Runs of one window -/

/-- The times of the calls that a run on a new window lets through. -/
def admitted (limit : ℤ) (calls : List ℚ) : List ℚ :=
  ((outputs (countAndCheck limit) (fun _ => true) [] calls).filter fun x => x.2 = .ok (true, 0)).map Prod.fst

/-- The answer to a call after others. -/
def answer (limit : ℤ) (past : List ℚ) (now : ℚ) : Except Refusal (Bool × ℤ) :=
  (countAndCheck limit (final (countAndCheck limit) [] past) now).1

section

variable {limit : ℤ} {calls : List ℚ} {now later : ℚ}

theorem admitted_concat : admitted limit (calls ++ [now]) =
    if answer limit calls now = .ok (true, 0) then admitted limit calls ++ [now] else admitted limit calls := by
  have hkeep : (fun _ : ℚ => true) now = true := rfl
  rw [admitted, outputs_concat _ hkeep, List.filter_append, List.map_append]
  split_ifs with h
  · rw [List.filter_cons_of_pos (by simpa [answer] using h)]
    rfl
  · rw [List.filter_cons_of_neg (by simpa [answer] using h), List.filter_nil, List.map_nil, List.append_nil, admitted]

/-- **What the window of a run is worth.** -/
theorem tracks_run (hlimit : 0 ≤ limit) (hclock : calls.Pairwise (· ≤ ·)) : ∀ b, (∀ x ∈ calls, x ≤ b) →
    Tracks 60 limit (final (countAndCheck limit) [] calls) (admitted limit calls) b := by
  induction calls using List.reverseRecOn with
  | nil => exact fun b _ => .init hlimit b
  | append_singleton calls now ih =>
    intro b hb
    obtain ⟨hcalls, -, hle⟩ := List.pairwise_append.1 hclock
    have htracks := ih hcalls now fun x hx => hle x hx now (List.mem_singleton.2 rfl)
    have hnow : now ≤ b := hb now (by simp)
    rw [final_concat, admitted_concat, answer]
    by_cases hfull : Full limit (final (countAndCheck limit) [] calls) now
    · rw [if_neg fun h => countAndCheck_admits_iff.1 h hfull, (countAndCheck_full hfull).2]
      exact (htracks.refuse le_rfl).mono hnow
    · rw [if_pos (countAndCheck_admits_iff.2 hfull), countAndCheck_room hfull]
      exact (htracks.add le_rfl (not_le.1 hfull)).mono hnow

/-- **A refusal**: the window is full of calls of the last minute, and drops the oldest one
before the time that is named. -/
theorem refusal_correct {window history : List ℚ} {retry : ℤ} (h : Tracks 60 limit window history now)
    (hret : (countAndCheck limit window now).1 = .ok (false, retry)) :
    ((within 60 now history).length : ℤ) = limit ∧ 1 ≤ retry ∧ retry ≤ 61 ∧
      ∀ later, now + retry ≤ later → ((within 60 later history).length : ℤ) < limit := by
  obtain ⟨hfull, oldest, rest, hlive, rfl⟩ := countAndCheck_refuses hret
  have hwithin : live 60 now window = within 60 now history := h.live_eq le_rfl
  have hlen : ((within 60 now history).length : ℤ) = limit :=
    le_antisymm (h.bounded now) (by rw [← hwithin]; exact hfull)
  -- the oldest call that is kept lies in the last minute
  have hmem : oldest ∈ within 60 now history := by
    rw [← hwithin, hlive]
    exact List.mem_cons_self
  have hold : now - 60 < oldest ∧ oldest ≤ now := by
    simpa [within] using (List.mem_filter.1 hmem).2
  have hnonneg : 0 ≤ 60 - (now - oldest) := by linarith [hold.1]
  rw [retryAfter_eq hnonneg]
  refine ⟨hlen, ?_, ?_, fun later hlater => ?_⟩
  · have := Int.floor_nonneg.2 hnonneg
    omega
  · have hfloor : ⌊60 - (now - oldest)⌋ ≤ 60 := Int.floor_le_iff.2 (by push_cast; linarith [hold.2])
    omega
  · have hround := Int.lt_floor_add_one (60 - (now - oldest))
    push_cast at hlater
    have hpast : ¬ later - 60 < oldest := by linarith
    have hnow : now ≤ later := by linarith [hold.2]
    have hrest : live 60 later window = live 60 later rest := by
      rw [← live_live hnow, hlive, live, List.filter_cons_of_neg (by simpa using hpast)]
      rfl
    rw [← h.live_eq hnow, hrest]
    have hle : (live 60 later rest).length ≤ rest.length := live_sublist.length_le
    rw [← hlen, ← hwithin, hlive, List.length_cons]
    push_cast
    omega

end

theorem exists_ge (xs : List ℚ) : ∃ b, ∀ x ∈ xs, x ≤ b := by
  induction xs with
  | nil => exact ⟨0, fun x hx => by cases hx⟩
  | cons y ys ih =>
    obtain ⟨b, hb⟩ := ih
    exact ⟨max y b, List.forall_mem_cons.2 ⟨le_max_left _ _, fun x hx => (hb x hx).trans (le_max_right _ _)⟩⟩

/-- **A window alone is correct**, over every run with a clock that never goes back and a
limit of at least one. -/
theorem window_correct {limit : ℤ} (hlimit : 1 ≤ limit) {calls : List ℚ} (hclock : calls.Pairwise (· ≤ ·)) :
    (∀ t, ((within 60 t (admitted limit calls)).length : ℤ) ≤ limit) ∧
    ∀ past now future, calls = past ++ now :: future →
      answer limit past now = .ok (true, 0) ∨
      ∃ retry, answer limit past now = .ok (false, retry) ∧
        ((within 60 now (admitted limit past)).length : ℤ) = limit ∧ 1 ≤ retry ∧ retry ≤ 61 ∧
        ∀ between later rest, future = between ++ later :: rest →
          admitted limit (past ++ now :: between) = admitted limit past → now + retry ≤ later →
          answer limit (past ++ now :: between) later = .ok (true, 0) := by
  have hzero : 0 ≤ limit := by omega
  constructor
  · obtain ⟨b, hb⟩ := exists_ge calls
    exact (tracks_run hzero hclock b hb).bounded
  · rintro past now future rfl
    obtain ⟨hpast, hrest, hle⟩ := List.pairwise_append.1 hclock
    have htracks := tracks_run hzero hpast now fun x hx => hle x hx now List.mem_cons_self
    by_cases hfull : Full limit (final (countAndCheck limit) [] past) now
    · right
      obtain ⟨retry, hret⟩ : ∃ retry, answer limit past now = .ok (false, retry) := by
        rw [answer, countAndCheck, if_pos (show limit ≤ _ from hfull)]
        cases hkept : live 60 now (final (countAndCheck limit) [] past) with
        | nil =>
          rw [Full, hkept, List.length_nil] at hfull
          omega
        | cons oldest rest => exact ⟨_, rfl⟩
      obtain ⟨hlen, hone, hmax, hlater⟩ := refusal_correct htracks hret
      refine ⟨retry, hret, hlen, hone, hmax, ?_⟩
      rintro between later rest rfl hnone hwait
      have hsplit : past ++ now :: (between ++ later :: rest) = (past ++ now :: between) ++ later :: rest := by simp
      rw [hsplit] at hclock
      obtain ⟨hcalls, -, hbefore⟩ := List.pairwise_append.1 hclock
      have hnext := tracks_run hzero hcalls later fun x hx => hbefore x hx later List.mem_cons_self
      rw [hnone] at hnext
      rw [answer, countAndCheck_admits_iff, Full, hnext.live_eq le_rfl]
      exact (hlater later hwait).not_ge
    · exact .inl (countAndCheck_admits_iff.2 hfull)

/-- Three calls at a limit of two. -/
theorem window_correct_three : [(0 : ℚ), 1, 2].Pairwise (· ≤ ·) ∧
    ∀ t, ((within 60 t (admitted 2 [0, 1, 2])).length : ℤ) ≤ 2 := by
  have hclock : [(0 : ℚ), 1, 2].Pairwise (· ≤ ·) := by norm_num
  exact ⟨hclock, (window_correct (by decide) hclock).1⟩

/-! ### Three windows -/

/-- `RateLimitConfig`. -/
structure RateLimitConfig where
  tenantRpm : ℤ
  globalRpm : ℤ
  decisionRpm : ℤ

/-- `RateLimiter`: `_global`, `_tenant` and `_tenant_writes`, in which a tenant without an
entry has an empty window. -/
structure RateLimiter where
  server : List ℚ
  tenant : PyStr → List ℚ
  tenantWrites : PyStr → List ℚ

/-- A call of `check`, with the readings of the clock that its windows take.  One that
is not asked takes none; the reading is then any between the ones that are. -/
structure Request where
  tenantId : PyStr
  action : PyStr
  serverNow : ℚ
  tenantNow : ℚ
  writeNow : ℚ

/-- The text of a limit that is exceeded. -/
def limitMessage (name : String) (limit retry : ℤ) : String :=
  name ++ " limit " ++ toString limit ++ "/min exceeded. Retry in " ++ toString retry ++ "s."

/-- The exception of the layer of the server. -/
def globalExceeded (cfg : RateLimitConfig) (retry : ℤ) : Refusal :=
  .tooMany "GLOBAL_RATE_LIMIT_EXCEEDED" (limitMessage "Global" cfg.globalRpm retry) cfg.globalRpm retry "global" none

/-- That of a tenant. -/
def tenantExceeded (cfg : RateLimitConfig) (tenantId : PyStr) (retry : ℤ) : Refusal :=
  .tooMany "TENANT_RATE_LIMIT_EXCEEDED" (limitMessage "Tenant" cfg.tenantRpm retry) cfg.tenantRpm retry "tenant"
    (some tenantId)

/-- That of the writes of a tenant. -/
def writesExceeded (cfg : RateLimitConfig) (tenantId : PyStr) (retry : ℤ) : Refusal :=
  .tooMany "DECISION_RATE_LIMIT_EXCEEDED" (limitMessage "Decision write" cfg.decisionRpm retry) cfg.decisionRpm retry
    "tenant_decisions" (some tenantId)

/-- One layer of `check`: its window, and the exception that a refusal of it raises. -/
def layer (limit : ℤ) (exceeded : ℤ → Refusal) (window : List ℚ) (now : ℚ) : Except Refusal Unit × List ℚ :=
  match countAndCheck limit window now with
  | (.ok (true, _), window) => (.ok (), window)
  | (.ok (false, retry), window) => (.error (exceeded retry), window)
  | (.error e, window) => (.error e, window)

/-- `RateLimiter.check`. -/
def check (cfg : RateLimitConfig) (s : RateLimiter) (r : Request) : Except Refusal Unit × RateLimiter :=
  match layer cfg.globalRpm (globalExceeded cfg) s.server r.serverNow with
  | (.error e, server) => (.error e, { s with server })
  | (.ok (), server) =>
    match layer cfg.tenantRpm (tenantExceeded cfg r.tenantId) (s.tenant r.tenantId) r.tenantNow with
    | (.error e, window) => (.error e, { s with server, tenant := Function.update s.tenant r.tenantId window })
    | (.ok (), window) =>
      let s := { s with server, tenant := Function.update s.tenant r.tenantId window }
      if r.action = .ofString "write" then
        match layer cfg.decisionRpm (writesExceeded cfg r.tenantId) (s.tenantWrites r.tenantId) r.writeNow with
        | (.error e, window) =>
          (.error e, { s with tenantWrites := Function.update s.tenantWrites r.tenantId window })
        | (.ok (), window) => (.ok (), { s with tenantWrites := Function.update s.tenantWrites r.tenantId window })
      else (.ok (), s)

/-- A window has dropped time stamps that are a minute old, and nothing else. -/
def Evicted (now : ℚ) (before after : List ℚ) : Prop := after.Sublist before ∧ live 60 now after = live 60 now before

/-- No window has counted the request. -/
structure Uncounted (s s' : RateLimiter) (r : Request) : Prop where
  server : Evicted r.serverNow s.server s'.server
  tenant : ∀ t, Evicted r.tenantNow (s.tenant t) (s'.tenant t)
  tenantWrites : ∀ t, Evicted r.writeNow (s.tenantWrites t) (s'.tenantWrites t)

/-- A request that is refused consumes no quota. -/
def QuotaKept (cfg : RateLimitConfig) (s : RateLimiter) (r : Request) : Prop :=
  ∀ e, (check cfg s r).1 = .error e → Uncounted s (check cfg s r).2 r

/-- The window of the server refuses, or none does. -/
def FirstOrNone (cfg : RateLimitConfig) (s : RateLimiter) (r : Request) : Prop :=
  Full cfg.globalRpm s.server r.serverNow ∨
    (¬ Full cfg.tenantRpm (s.tenant r.tenantId) r.tenantNow ∧
      (r.action = .ofString "write" → ¬ Full cfg.decisionRpm (s.tenantWrites r.tenantId) r.writeNow))

instance (cfg : RateLimitConfig) (s : RateLimiter) (r : Request) : Decidable (FirstOrNone cfg s r) :=
  inferInstanceAs (Decidable (_ ∨ _))

/-! ### One request -/

theorem Evicted.refl (now : ℚ) (window : List ℚ) : Evicted now window window := ⟨List.Sublist.refl _, rfl⟩

theorem Evicted.live (now : ℚ) (window : List ℚ) : Evicted now window (live 60 now window) :=
  ⟨live_sublist, live_live le_rfl⟩

/-- A window that has counted the request has done more than that. -/
theorem not_evicted_counted (now : ℚ) (window : List ℚ) : ¬ Evicted now window (live 60 now window ++ [now]) := by
  rintro ⟨-, h⟩
  have hself : live 60 now [now] = [now] := List.filter_cons_of_pos (by simp)
  rw [live_append, live_live le_rfl, hself] at h
  have := congrArg List.length h
  simp at this

section

variable {limit : ℤ} {exceeded : ℤ → Refusal} {window : List ℚ} {now : ℚ}

theorem layer_full (h : Full limit window now) : ∃ e, layer limit exceeded window now = (.error e, live 60 now window) := by
  obtain ⟨hno, hkept⟩ := countAndCheck_full h
  rw [layer]
  cases hres : countAndCheck limit window now with
  | mk answer after =>
    rw [hres] at hno hkept
    obtain rfl : after = live 60 now window := hkept
    cases answer with
    | error e => exact ⟨e, rfl⟩
    | ok a =>
      obtain ⟨allowed, retry⟩ := a
      cases allowed with
      | true => exact absurd rfl (hno retry)
      | false => exact ⟨exceeded retry, rfl⟩

theorem layer_room (h : ¬ Full limit window now) :
    layer limit exceeded window now = (.ok (), live 60 now window ++ [now]) := by
  rw [layer, countAndCheck_room h]

end

section

variable {cfg : RateLimitConfig} {s : RateLimiter} {r : Request}

/-- What `check` does, by the window that refuses. -/
inductive Outcome (cfg : RateLimitConfig) (s : RateLimiter) (r : Request) : Except Refusal Unit × RateLimiter → Prop
  | server (e : Refusal) (full : Full cfg.globalRpm s.server r.serverNow) :
    Outcome cfg s r (.error e, { s with server := live 60 r.serverNow s.server })
  | tenant (e : Refusal) (room : ¬ Full cfg.globalRpm s.server r.serverNow)
      (full : Full cfg.tenantRpm (s.tenant r.tenantId) r.tenantNow) :
    Outcome cfg s r (.error e, { s with
      server := live 60 r.serverNow s.server ++ [r.serverNow]
      tenant := Function.update s.tenant r.tenantId (live 60 r.tenantNow (s.tenant r.tenantId)) })
  | writes (e : Refusal) (room : ¬ Full cfg.globalRpm s.server r.serverNow) (write : r.action = .ofString "write")
      (full : Full cfg.decisionRpm (s.tenantWrites r.tenantId) r.writeNow) (after : RateLimiter)
      (server : after.server = live 60 r.serverNow s.server ++ [r.serverNow]) : Outcome cfg s r (.error e, after)
  | passed (room : ¬ Full cfg.globalRpm s.server r.serverNow)
      (tenantRoom : ¬ Full cfg.tenantRpm (s.tenant r.tenantId) r.tenantNow)
      (writesRoom : r.action = .ofString "write" → ¬ Full cfg.decisionRpm (s.tenantWrites r.tenantId) r.writeNow)
      (after : RateLimiter) (server : after.server = live 60 r.serverNow s.server ++ [r.serverNow])
      (tenant : after.tenant =
        Function.update s.tenant r.tenantId (live 60 r.tenantNow (s.tenant r.tenantId) ++ [r.tenantNow])) :
    Outcome cfg s r (.ok (), after)

theorem check_outcome (cfg : RateLimitConfig) (s : RateLimiter) (r : Request) : Outcome cfg s r (check cfg s r) := by
  rw [check]
  by_cases hserver : Full cfg.globalRpm s.server r.serverNow
  · obtain ⟨e, he⟩ := @layer_full _ (globalExceeded cfg) _ _ hserver
    rw [he]
    exact .server e hserver
  · rw [layer_room hserver]
    by_cases htenant : Full cfg.tenantRpm (s.tenant r.tenantId) r.tenantNow
    · obtain ⟨e, he⟩ := @layer_full _ (tenantExceeded cfg r.tenantId) _ _ htenant
      rw [he]
      exact .tenant e hserver htenant
    · rw [layer_room htenant]
      by_cases hwrite : r.action = .ofString "write"
      · simp only [if_pos hwrite]
        by_cases hwrites : Full cfg.decisionRpm (s.tenantWrites r.tenantId) r.writeNow
        · obtain ⟨e, he⟩ := @layer_full _ (writesExceeded cfg r.tenantId) _ _ hwrites
          rw [he]
          exact .writes e hserver hwrite hwrites _ rfl
        · rw [layer_room hwrites]
          exact .passed hserver htenant (fun _ => hwrites) _ rfl rfl
      · simp only [if_neg hwrite]
        exact .passed hserver htenant (fun h => absurd h hwrite) _ rfl rfl

/-- **A refused request consumes no quota exactly if the first window refuses it.** -/
theorem quotaKept_iff : QuotaKept cfg s r ↔ FirstOrNone cfg s r := by
  rw [QuotaKept, FirstOrNone]
  have houtcome := check_outcome cfg s r
  generalize check cfg s r = res at houtcome
  cases houtcome with
  | server e full =>
    exact iff_of_true (fun _ _ => ⟨.live _ _, fun t => .refl _ _, fun t => .refl _ _⟩) (.inl full)
  | tenant e room full =>
    refine iff_of_false (fun h => not_evicted_counted _ _ (h e rfl).server) ?_
    rintro (h | h)
    · exact room h
    · exact h.1 full
  | writes e room write full after server =>
    refine iff_of_false (fun h => ?_) ?_
    · have hserver := (h e rfl).server
      rw [server] at hserver
      exact not_evicted_counted _ _ hserver
    · rintro (h | h)
      · exact room h
      · exact h.2 write full
  | passed room tenantRoom writesRoom after server tenant =>
    exact iff_of_true (fun e he => by cases he) (.inr ⟨tenantRoom, writesRoom⟩)

end

/-! ### Runs of requests -/

/-- A limiter that has just been made. -/
def RateLimiter.new : RateLimiter := ⟨[], fun _ => [], fun _ => []⟩

/-- The readings of a request, in order. -/
def Request.readings (r : Request) : List ℚ := [r.serverNow, r.tenantNow, r.writeNow]

/-- The clock never goes back. -/
def Clock (rs : List Request) : Prop := (rs.flatMap Request.readings).Pairwise (· ≤ ·)

/-- The requests of a run that the window of the server counts. -/
def counted (cfg : RateLimitConfig) : RateLimiter → List Request → List Request
  | _, [] => []
  | s, r :: rs =>
    if Full cfg.globalRpm s.server r.serverNow then counted cfg (check cfg s r).2 rs
    else r :: counted cfg (check cfg s r).2 rs

/-- The readings with which the requests of a tenant count for the server. -/
def share (t : PyStr) (rs : List Request) : List ℚ := (rs.filter fun r => r.tenantId = t).map Request.serverNow

theorem counted_concat {cfg : RateLimitConfig} {rs : List Request} {r : Request} : ∀ {s : RateLimiter},
    counted cfg s (rs ++ [r]) = counted cfg s rs ++
      if Full cfg.globalRpm (final (check cfg) s rs).server r.serverNow then [] else [r] := by
  induction rs with
  | nil => exact rfl
  | cons r' rs ih =>
    intro s
    have hfinal : final (check cfg) s (r' :: rs) = final (check cfg) (check cfg s r').2 rs := rfl
    rw [List.cons_append, counted, counted, ih, hfinal]
    by_cases hfull : Full cfg.globalRpm s.server r'.serverNow
    · rw [if_pos hfull, if_pos hfull]
    · rw [if_neg hfull, if_neg hfull, List.cons_append]

/-- What the windows of a run are worth, for the requests that the server has counted. -/
structure Shares (cfg : RateLimitConfig) (s : RateLimiter) (past : List Request) (b : ℚ) : Prop where
  server : Tracks 60 (max cfg.globalRpm 0) s.server (past.map Request.serverNow) b
  tenant : ∀ t, Tracks 60 (max cfg.tenantRpm 0) (s.tenant t)
    ((past.filter fun r => r.tenantId = t).map Request.tenantNow) b
  order : ∀ r ∈ past, r.serverNow ≤ r.tenantNow

section

variable {cfg : RateLimitConfig} {s : RateLimiter} {past : List Request} {b later : ℚ} {r : Request}

theorem Shares.new (cfg : RateLimitConfig) (b : ℚ) : Shares cfg .new [] b where
  server := .init (le_max_right _ _) b
  tenant _ := .init (le_max_right _ _) b
  order _ h := by cases h

theorem Shares.mono (h : Shares cfg s past b) (hb : b ≤ later) : Shares cfg s past later :=
  { h with server := h.server.mono hb, tenant := fun t => (h.tenant t).mono hb }

/-- **A request that the first window refuses, or none.** -/
theorem Shares.step (h : Shares cfg s past b) (hb : b ≤ r.serverNow) (horder : r.serverNow ≤ r.tenantNow)
    (hfirst : FirstOrNone cfg s r) : Shares cfg (check cfg s r).2
      (past ++ if Full cfg.globalRpm s.server r.serverNow then [] else [r]) r.tenantNow := by
  have houtcome := check_outcome cfg s r
  generalize check cfg s r = res at houtcome
  cases houtcome with
  | server e full =>
    rw [if_pos full, List.append_nil]
    exact { h with
      server := (h.server.refuse hb).mono horder
      tenant := fun t => (h.tenant t).mono (hb.trans horder) }
  | tenant e room full => exact absurd hfirst (not_or_intro room fun hr => hr.1 full)
  | writes e room write full after server => exact absurd hfirst (not_or_intro room fun hr => hr.2 write full)
  | passed room tenantRoom writesRoom after server tenant =>
    rw [if_neg room]
    have hroom : ((live 60 r.serverNow s.server).length : ℤ) < max cfg.globalRpm 0 :=
      (not_le.1 room).trans_le (le_max_left _ _)
    have htenant : ((live 60 r.tenantNow (s.tenant r.tenantId)).length : ℤ) < max cfg.tenantRpm 0 :=
      (not_le.1 tenantRoom).trans_le (le_max_left _ _)
    refine ⟨?_, fun t => ?_, fun r' hr' => ?_⟩
    · rw [server, List.map_append]
      exact (h.server.add hb hroom).mono horder
    · rw [tenant, List.filter_append, List.map_append]
      by_cases ht : r.tenantId = t
      · subst ht
        rw [Function.update_self, List.filter_cons_of_pos (by simp)]
        exact (h.tenant _).add (hb.trans horder) htenant
      · rw [Function.update_of_ne (Ne.symm ht), List.filter_cons_of_neg (by simpa using ht), List.filter_nil,
          List.map_nil, List.append_nil]
        exact (h.tenant t).mono (hb.trans horder)
    · rcases List.mem_append.1 hr' with hr' | hr'
      · exact h.order r' hr'
      · obtain rfl := List.mem_singleton.1 hr'
        exact horder

theorem Shares.run {rs : List Request} (hclock : Clock rs) (hfirst : Along (check cfg) (FirstOrNone cfg) .new rs) :
    ∀ b, (∀ x ∈ rs.flatMap Request.readings, x ≤ b) → Shares cfg (final (check cfg) .new rs) (counted cfg .new rs) b := by
  induction rs using List.reverseRecOn with
  | nil => exact fun b _ => .new cfg b
  | append_singleton rs r ih =>
    intro b hb
    rw [Clock, List.flatMap_append, List.pairwise_append] at hclock
    obtain ⟨hrs, hr, hle⟩ := hclock
    obtain ⟨hpast, hstep, -⟩ := Along.append.1 hfirst
    have horder : r.serverNow ≤ r.tenantNow := by
      have hr : [r.serverNow, r.tenantNow, r.writeNow].Pairwise (· ≤ ·) := by simpa [Request.readings] using hr
      exact List.rel_of_pairwise_cons hr (by simp)
    have hprev := ih hrs hpast r.serverNow fun x hx => hle x hx r.serverNow (by simp [Request.readings])
    rw [final_concat, counted_concat]
    exact (hprev.step le_rfl horder hstep).mono (hb r.tenantNow (by simp [Request.readings]))

/-- What a tenant holds of the window of the server is within its own limit. -/
theorem Shares.share_le (h : Shares cfg s past b) (hb : b ≤ later) (t : PyStr) :
    ((within 60 later (share t past)).length : ℤ) ≤ max cfg.tenantRpm 0 := by
  refine le_trans ?_ ((h.tenant t).bounded later)
  rw [within, within, share, ← List.countP_eq_length_filter, ← List.countP_eq_length_filter, List.countP_map,
    List.countP_map]
  -- the tenant's window counts a request no earlier, and no later than now
  refine Int.ofNat_le.2 (List.countP_mono_left fun r hr hin => ?_)
  have hpast := List.mem_of_mem_filter hr
  have hnow := (h.tenant t).past r.tenantNow (List.mem_map_of_mem hr)
  simp only [Function.comp_apply, decide_eq_true_eq] at hin ⊢
  exact ⟨hin.1.trans_le (h.order r hpast), hnow.trans hb⟩

end

/-- One tenant does not starve the others: whenever the window of the server is full, it
has counted a request of another tenant within the last minute. -/
def NoStarvation (cfg : RateLimitConfig) (rs : List Request) (later : ℚ) (t : PyStr) : Prop :=
  0 < cfg.globalRpm → cfg.tenantRpm < cfg.globalRpm →
    Full cfg.globalRpm (final (check cfg) .new rs).server later →
    ∃ r ∈ counted cfg .new rs, r.tenantId ≠ t ∧ later - 60 < r.serverNow

theorem Shares.noStarvation {cfg : RateLimitConfig} {rs : List Request} {b later : ℚ}
    (h : Shares cfg (final (check cfg) .new rs) (counted cfg .new rs) b) (hb : b ≤ later) (t : PyStr) :
    NoStarvation cfg rs later t := by
  intro hpos hlt hfull
  by_contra hnone
  push Not at hnone
  rw [Full, h.server.live_eq hb] at hfull
  -- then all that the window counts is of the tenant
  have hshare : within 60 later ((counted cfg .new rs).map Request.serverNow) = within 60 later (share t (counted cfg .new rs)) := by
    rw [within, within, share, List.filter_map, List.filter_map, List.filter_filter]
    refine congrArg _ (List.filter_congr fun r hr => ?_)
    by_cases hin : later - 60 < r.serverNow
    · have ht : r.tenantId = t := by
        by_contra ht
        exact (hnone r hr ht).not_gt hin
      simp [ht]
    · simp [hin]
  rw [hshare] at hfull
  have hle := h.share_le hb t
  omega

/-- **Quotas.**  A request that is refused consumes none exactly if the first window refuses
it or none does.  In a run of such requests with a clock that never goes back, the
requests of a tenant that the server counts within a minute are no more than its own limit,
and they alone do not fill the window of the server. -/
theorem quota_correct (cfg : RateLimitConfig) :
    (∀ s r, QuotaKept cfg s r ↔ FirstOrNone cfg s r) ∧
    ∀ rs, Clock rs → Along (check cfg) (FirstOrNone cfg) .new rs →
      ∀ later, (∀ x ∈ rs.flatMap Request.readings, x ≤ later) → ∀ t,
        ((within 60 later (share t (counted cfg .new rs))).length : ℤ) ≤ max cfg.tenantRpm 0 ∧
          NoStarvation cfg rs later t := by
  refine ⟨fun s r => quotaKept_iff, fun rs hclock hfirst later hlater t => ?_⟩
  have hshares := Shares.run hclock hfirst later hlater
  exact ⟨hshares.share_le le_rfl t, hshares.noStarvation le_rfl t⟩

/-! ### One tenant fills the window of the server -/

/-- One request a minute for a tenant, two for the server. -/
def narrowConfig : RateLimitConfig := ⟨1, 2, 1⟩

/-- A read at one instant. -/
def readAt (tenantId : String) (now : ℚ) : Request := ⟨.ofString tenantId, .ofString "read", now, now, now⟩

/-- Two tenants with one request each fill the window together. -/
theorem quota_correct_narrow (t : PyStr) :
    NoStarvation narrowConfig [readAt "noisy" 0, readAt "quiet" 1] 1 t := by
  have hclock : Clock [readAt "noisy" 0, readAt "quiet" 1] := by
    norm_num [Clock, Request.readings, readAt]
  refine ((quota_correct narrowConfig).2 _ hclock (by decide +kernel) 1 (fun x hx => ?_) t).2
  have hx : x = 0 ∨ x = 1 := by simpa [Request.readings, readAt] using hx
  rcases hx with rfl | rfl <;> norm_num

/-- `noisy` sends two requests, the second of which is refused by its own window; it counts for the
server, whose window is full when `quiet` sends its first. -/
theorem quota_lost :
    let s := (check narrowConfig .new (readAt "noisy" 0)).2
    let s' := (check narrowConfig s (readAt "noisy" 1)).2
    ¬ QuotaKept narrowConfig s (readAt "noisy" 1) ∧
      (∃ retry, (check narrowConfig s (readAt "noisy" 1)).1 =
        .error (tenantExceeded narrowConfig (.ofString "noisy") retry)) ∧
      s'.server = [0, 1] ∧
      ∃ retry, (check narrowConfig s' (readAt "quiet" 2)).1 = .error (globalExceeded narrowConfig retry) := by
  have hroom : ¬ Full 2 (check narrowConfig .new (readAt "noisy" 0)).2.server 1 := by decide +kernel
  have hfull : Full 1 ((check narrowConfig .new (readAt "noisy" 0)).2.tenant (.ofString "noisy")) 1 := by decide +kernel
  refine ⟨fun h => ?_, ⟨60, by decide +kernel⟩, by decide +kernel, 59, by decide +kernel⟩
  rcases quotaKept_iff.1 h with h | h
  · exact hroom h
  · exact h.1 hfull

end RateLimit
end ProvableAi
