/-
# The failover signer

`FailoverSigner` in `signer_failover.py`: a primary and a fallback signer behind
one interface, a flag `_primary_healthy` that says which of them is used, a
counter of consecutive failures, and a probe thread that sets the flag back.

`record_decision` makes three calls on the signer, `sign_hash`, `get_key_id` and
`get_public_key`, and each reads the flag on its own.  The model takes one step
for each section under a lock and for each call of an underlying signer, whose
outcome is free, and lets any number of threads take steps in any order.

`same_signer` says when the three calls agree: every failure of the primary
reaches the threshold or finds the flag down, and no step changes the flag
while another decision has its signer fixed and its public key not yet read.
`threshold_mixes_keys` is the smallest run that breaks it, with one failure
below the threshold and a single thread.
-/

import ProvableAi.Engine.Runs

namespace ProvableAi
namespace Failover

/-! ### The state -/

/-- The underlying signers. -/
structure Pair where
  primary : Signer
  fallback : Signer

/-- `self._primary if self._primary_healthy else self._fallback`. -/
def Pair.active (P : Pair) (healthy : Bool) : Signer := if healthy then P.primary else P.fallback

/-- `FailoverMetrics`, without the times. -/
structure Metrics where
  failoverCount : ℕ
  failbackCount : ℕ
  primaryErrors : ℕ
  fallbackErrors : ℕ
  totalSigns : ℕ
  consecutiveFailures : ℕ
  deriving DecidableEq

/-- What the threads share. -/
structure Shared where
  healthy : Bool
  metrics : Metrics
  deriving DecidableEq

/-- What a thread was started for. -/
inductive Call where
  /-- The three calls of `record_decision`. -/
  | record (hash : Bytes)
  /-- `sign_hash` alone. -/
  | sign (hash : Bytes)
  | forceFailover
  | forceFailback
  /-- `_health_probe_loop`. -/
  | probe
  deriving DecidableEq

/-- The bytes that are signed. -/
def Call.hash : Call → Bytes
  | record h => h
  | sign h => h
  | _ => []

/-- Where a thread is: the section it takes next. -/
inductive Pc where
  | recordSign
  | readHealthy
  | callPrimary
  | resetConsecutive (value : Bytes)
  | recordPrimaryError
  | handleFailure
  | callFallback
  | recordFallbackError
  | getKeyId (value : Bytes)
  | getPublicKey (value : Bytes) (keyId : String)
  | failover
  | startProbe
  | failback
  | recordFailback
  | probeCheck
  | probeCall
  | probeSet
  /-- `_health_probe_loop` has returned, the thread has not ended yet. -/
  | leaving
  /-- `sign_hash` alone has returned. -/
  | signed (value : Bytes)
  /-- The three calls have returned. -/
  | returned (value : Bytes) (keyId : String) (publicKey : Bytes)
  | raised
  | done
  deriving DecidableEq

structure Thread where
  call : Call
  pc : Pc
  deriving DecidableEq

structure State where
  shared : Shared
  threads : List Thread
  /-- `_probe_thread`. -/
  probe : Option ℕ
  deriving DecidableEq

/-- After `__init__`. -/
def State.init : State := ⟨⟨true, ⟨0, 0, 0, 0, 0, 0⟩⟩, [], none⟩

/-- How a call of an underlying signer ends: it returns, raises one of
`_FAILOVER_EXCEPTIONS`, or raises something else. -/
inductive Outcome where
  | ok
  | failover
  | other
  deriving DecidableEq

/-! ### Steps -/

/-- Where a thread starts. -/
def Call.start : Call → Pc
  | record _ => .recordSign
  | sign _ => .recordSign
  | forceFailover => .failover
  | forceFailback => .failback
  | probe => .probeCheck

/-- Where a thread goes on when `sign_hash` returns. -/
def Call.afterSign : Call → Bytes → Pc
  | record _, value => .getKeyId value
  | _, value => .signed value

/-- One section of a thread: what it leaves shared, where the thread goes on, and
whether it calls `_start_health_probe`. -/
def next (P : Pair) (max : ℕ) (sh : Shared) (call : Call) : Pc → Outcome → Option (Shared × Pc × Bool)
  | .recordSign, _ =>
    if call.hash.length = 32 then
      some ({ sh with metrics.totalSigns := sh.metrics.totalSigns + 1 }, .readHealthy, false)
    else some (sh, .raised, false)
  | .readHealthy, _ => some (sh, if sh.healthy then .callPrimary else .callFallback, false)
  | .callPrimary, .ok => some (sh, .resetConsecutive (P.primary.sign call.hash), false)
  | .callPrimary, .failover => some (sh, .recordPrimaryError, false)
  | .callPrimary, .other => some (sh, .raised, false)
  | .resetConsecutive value, _ =>
    some ({ sh with metrics.consecutiveFailures := 0 }, call.afterSign value, false)
  | .recordPrimaryError, _ =>
    some ({ sh with
      metrics.primaryErrors := sh.metrics.primaryErrors + 1
      metrics.consecutiveFailures := sh.metrics.consecutiveFailures + 1 }, .handleFailure, false)
  | .handleFailure, _ =>
    if max ≤ sh.metrics.consecutiveFailures ∧ sh.healthy = true then
      some ({ healthy := false, metrics := { sh.metrics with failoverCount := sh.metrics.failoverCount + 1 } },
        .callFallback, true)
    else some (sh, .callFallback, false)
  | .callFallback, .ok => some (sh, call.afterSign (P.fallback.sign call.hash), false)
  | .callFallback, _ => some (sh, .recordFallbackError, false)
  | .recordFallbackError, _ =>
    some ({ sh with metrics.fallbackErrors := sh.metrics.fallbackErrors + 1 }, .raised, false)
  | .getKeyId value, _ => some (sh, .getPublicKey value (P.active sh.healthy).keyId, false)
  | .getPublicKey value keyId, .ok => some (sh, .returned value keyId (P.active sh.healthy).publicKey, false)
  | .getPublicKey _ _, _ => some (sh, .raised, false)
  | .failover, _ =>
    if sh.healthy then
      some ({ healthy := false, metrics := { sh.metrics with failoverCount := sh.metrics.failoverCount + 1 } },
        .startProbe, false)
    else some (sh, .done, false)
  | .startProbe, _ => some (sh, .done, true)
  | .failback, _ => some ({ sh with healthy := true }, .recordFailback, false)
  | .recordFailback, _ =>
    some ({ sh with
      metrics.failbackCount := sh.metrics.failbackCount + 1
      metrics.consecutiveFailures := 0 }, if call = .probe then .leaving else .done, false)
  | .probeCheck, _ => some (sh, if sh.healthy then .leaving else .probeCall, false)
  | .probeCall, .ok => some (sh, .probeSet, false)
  | .probeCall, _ => some (sh, .probeCheck, false)
  | .probeSet, _ => some ({ sh with healthy := true }, .recordFailback, false)
  | .leaving, _ => some (sh, .done, false)
  | .signed _, _ => none
  | .returned _ _ _, _ => none
  | .raised, _ => none
  | .done, _ => none

/-- `_probe_thread and _probe_thread.is_alive()`. -/
def State.probeAlive (s : State) : Bool :=
  match s.probe with
  | some k => (s.threads[k]?).any fun t => t.pc ≠ .done
  | none => false

/-- `_start_health_probe`. -/
def State.startProbe (s : State) : State :=
  if s.probeAlive then s
  else { s with threads := s.threads ++ [⟨.probe, Call.probe.start⟩], probe := some s.threads.length }

/-- What happens next: a thread is started, or one takes its section. -/
inductive Action where
  | spawn (call : Call)
  | step (i : ℕ) (outcome : Outcome)
  deriving DecidableEq

/-- One step; `none` where the thread has nothing to do.  The probe is started by
`_start_health_probe` only. -/
def State.step (P : Pair) (max : ℕ) (s : State) : Action → Option State
  | .spawn .probe => none
  | .spawn call => some { s with threads := s.threads ++ [⟨call, call.start⟩] }
  | .step i outcome => do
    let t ← s.threads[i]?
    let (shared, pc, starts) ← next P max s.shared t.call t.pc outcome
    let s' := { s with shared := shared, threads := s.threads.set i ⟨t.call, pc⟩ }
    pure (if starts then s'.startProbe else s')

/-- A run. -/
def State.run (P : Pair) (max : ℕ) : State → List Action → Option State
  | s, [] => some s
  | s, a :: as => do
    let t ← s.step P max a
    State.run P max t as

/-! ### When the three calls agree -/

/-- The signer of a decision is fixed, and its public key is not read yet. -/
def Thread.fixed (t : Thread) : Bool :=
  match t.call, t.pc with
  | .record _, .resetConsecutive _ => true
  | .record _, .callFallback => true
  | .record _, .getKeyId _ => true
  | .record _, .getPublicKey _ _ => true
  | _, _ => false

/-- The section changes the flag. -/
def flips (max : ℕ) (sh : Shared) : Pc → Bool
  | .handleFailure => decide (max ≤ sh.metrics.consecutiveFailures) && sh.healthy
  | .failover => sh.healthy
  | .failback => !sh.healthy
  | .probeSet => !sh.healthy
  | _ => false

/-- The thread makes the three calls of `record_decision`. -/
def Call.isRecord : Call → Bool
  | record _ => true
  | _ => false

/-- The condition on a step.  For a decision: the primary returns a signature while the
flag is up, and a failure of it reaches the threshold or finds the flag down.
For every thread: it does not change the flag while another decision has its
signer fixed. -/
def quiet (max : ℕ) (s : State) : Action → Bool
  | .spawn _ => true
  | .step i outcome =>
    match s.threads[i]? with
    | none => true
    | some t =>
      (!(t.call.isRecord && t.pc = .callPrimary && outcome = .ok) || s.shared.healthy) &&
      (!(t.call.isRecord && t.pc = .handleFailure) || max ≤ s.shared.metrics.consecutiveFailures ||
        !s.shared.healthy) &&
      (!flips max s.shared t.pc || (s.threads.eraseIdx i).all fun u => !u.fixed)

/-- Every step of the run meets the condition. -/
def quietRun (P : Pair) (max : ℕ) : State → List Action → Bool
  | _, [] => true
  | s, a :: as =>
    quiet max s a &&
      match s.step P max a with
      | some t => quietRun P max t as
      | none => true

/-- What a decision holds comes from the signer that the flag names; once all three
calls have returned, from one signer. -/
def Consistent (P : Pair) (healthy : Bool) (t : Thread) : Prop :=
  match t.call, t.pc with
  | .record h, .resetConsecutive v => v = (P.active healthy).sign h
  | .record _, .callFallback => healthy = false
  | .record h, .getKeyId v => v = (P.active healthy).sign h
  | .record h, .getPublicKey v k => v = (P.active healthy).sign h ∧ k = (P.active healthy).keyId
  | .record h, .returned v k p =>
    ∃ b, v = (P.active b).sign h ∧ k = (P.active b).keyId ∧ p = (P.active b).publicKey
  | _, _ => True

section

variable {P : Pair} {max : ℕ} {sh sh' : Shared} {call : Call} {pc pc' : Pc} {o : Outcome} {starts : Bool}

/-- A section changes the flag exactly where `flips` says so. -/
theorem next_healthy (h : next P max sh call pc o = some (sh', pc', starts)) :
    sh'.healthy = (flips max sh pc ^^ sh.healthy) := by
  cases pc <;> cases o <;> simp only [next, flips, reduceCtorEq] at h ⊢ <;>
    (try split_ifs at h) <;> grind

/-- A thread that has no signer fixed does not depend on the flag. -/
theorem Consistent.of_not_fixed {t : Thread} {b c : Bool} (ht : t.fixed = false) (h : Consistent P b t) :
    Consistent P c t := by
  obtain ⟨call, pc⟩ := t
  cases call <;> cases pc <;> simp_all [Thread.fixed, Consistent]

/-- The section of a decision keeps what it holds consistent. -/
theorem next_consistent (h : next P max sh call pc o = some (sh', pc', starts))
    (hc : Consistent P sh.healthy ⟨call, pc⟩)
    (hprimary : call.isRecord = true → pc = .callPrimary → o = .ok → sh.healthy = true)
    (hfailure : call.isRecord = true → pc = .handleFailure →
      max ≤ sh.metrics.consecutiveFailures ∨ sh.healthy = false) :
    Consistent P sh'.healthy ⟨call, pc'⟩ := by
  cases call with
  | record x =>
    have hprimary := hprimary rfl
    have hfailure := hfailure rfl
    cases pc with
    | recordSign =>
      simp only [next] at h
      split_ifs at h <;> · obtain ⟨rfl, rfl, -⟩ := by simpa using h
                           trivial
    | readHealthy =>
      obtain ⟨rfl, rfl, -⟩ := by simpa [next] using h
      cases hh : sh.healthy <;> simp [Consistent]
    | callPrimary =>
      cases o <;> obtain ⟨rfl, rfl, -⟩ := by simpa [next] using h
      · have hh := hprimary rfl rfl
        simp [Consistent, Pair.active, hh, Call.hash]
      · trivial
      · trivial
    | resetConsecutive v =>
      obtain ⟨rfl, rfl, -⟩ := by simpa [next] using h
      exact hc
    | handleFailure =>
      simp only [next] at h
      split_ifs at h with hh
      · obtain ⟨rfl, rfl, -⟩ := by simpa using h
        rfl
      · obtain ⟨rfl, rfl, -⟩ := by simpa using h
        have hf := hfailure rfl
        simp only [Consistent]
        grind
    | callFallback =>
      cases o <;> obtain ⟨rfl, rfl, -⟩ := by simpa [next] using h
      · have hh : sh.healthy = false := hc
        simp [Consistent, Call.afterSign, Pair.active, hh, Call.hash]
      · trivial
      · trivial
    | getKeyId v =>
      obtain ⟨rfl, rfl, -⟩ := by simpa [next] using h
      exact ⟨hc, rfl⟩
    | getPublicKey v k =>
      cases o <;> obtain ⟨rfl, rfl, -⟩ := by simpa [next] using h
      · exact ⟨sh.healthy, hc.1, hc.2, rfl⟩
      · trivial
      · trivial
    | _ =>
      -- sections after which nothing of a signer is held
      all_goals
        cases o <;> simp only [next, reduceCtorEq] at h <;> (try split_ifs at h) <;>
          simp only [Option.some.injEq, Prod.mk.injEq] at h <;> obtain ⟨-, rfl, -⟩ := h <;>
          simp [Consistent]
  | _ => all_goals cases pc' <;> trivial

end

/-! ### Runs -/

/-- Every thread is consistent. -/
def Inv (P : Pair) (s : State) : Prop := ∀ t ∈ s.threads, Consistent P s.shared.healthy t

section

variable {P : Pair} {max : ℕ}

/-- What the condition says of a thread's section. -/
theorem quiet_step {s : State} {i : ℕ} {o : Outcome} {t : Thread} (ht : s.threads[i]? = some t)
    (h : quiet max s (.step i o) = true) :
    (t.call.isRecord = true → t.pc = .callPrimary → o = .ok → s.shared.healthy = true) ∧
    (t.call.isRecord = true → t.pc = .handleFailure →
      max ≤ s.shared.metrics.consecutiveFailures ∨ s.shared.healthy = false) ∧
    (flips max s.shared t.pc = true → ∀ u ∈ s.threads.eraseIdx i, u.fixed = false) := by
  simp only [quiet, ht, Bool.and_eq_true, Bool.or_eq_true, Bool.not_eq_true', decide_eq_true_eq, List.all_eq_true] at h
  obtain ⟨⟨hp, hf⟩, hs⟩ := h
  refine ⟨fun hc hpc ho => ?_, fun hc hpc => ?_, fun hfl => ?_⟩
  · simpa [hc, hpc, ho] using hp
  · simpa [hc, hpc] using hf
  · simpa [hfl] using hs

theorem startProbe_inv {s : State} (h : Inv P s) : Inv P s.startProbe := by
  rw [State.startProbe]
  split_ifs
  · exact h
  · intro t ht
    rcases List.mem_append.1 ht with ht | ht
    · exact h t ht
    · rw [List.mem_singleton.1 ht]
      trivial

/-- **One step** that meets the condition keeps every thread consistent. -/
theorem step_inv {s s' : State} {a : Action} (h : Inv P s) (hq : quiet max s a = true)
    (hs : s.step P max a = some s') : Inv P s' := by
  cases a with
  | spawn call =>
    have hstart : ∀ t ∈ s.threads ++ [⟨call, call.start⟩], Consistent P s.shared.healthy t := by
      intro t ht
      rcases List.mem_append.1 ht with ht | ht
      · exact h t ht
      · rw [List.mem_singleton.1 ht]
        cases call <;> trivial
    cases call with
    | probe => cases hs
    | _ => rw [← Option.some.inj hs]; exact hstart
  | step i o =>
    simp only [State.step, Option.bind_eq_bind, Option.bind_eq_some_iff] at hs
    obtain ⟨t, ht, ⟨sh', pc', starts⟩, hn, hs⟩ := hs
    obtain ⟨hprimary, hfailure, hother⟩ := quiet_step ht hq
    have hown := next_consistent hn (h t (List.mem_of_getElem? ht)) hprimary hfailure
    have hset : Inv P { s with shared := sh', threads := s.threads.set i ⟨t.call, pc'⟩ } := by
      intro u hu
      obtain ⟨k, hk⟩ := List.mem_iff_getElem?.1 hu
      by_cases hki : k = i
      · subst hki
        have hlt : k < s.threads.length := (List.getElem?_eq_some_iff.1 ht).1
        rw [List.getElem?_set_self hlt] at hk
        rw [← Option.some.inj hk]
        exact hown
      · rw [List.getElem?_set_ne (Ne.symm hki)] at hk
        have hu := h u (List.mem_of_getElem? hk)
        -- the flag stands, or the other thread does not depend on it
        cases hf : flips max s.shared t.pc with
        | false =>
          rw [show sh'.healthy = s.shared.healthy by rw [next_healthy hn, hf, Bool.false_xor]]
          exact hu
        | true => exact hu.of_not_fixed (hother hf u (List.mem_eraseIdx_iff_getElem?.2 ⟨k, hki, hk⟩))
    cases starts with
    | false => rw [← Option.some.inj hs]; exact hset
    | true => rw [← Option.some.inj hs]; exact startProbe_inv hset

/-- **A run** whose steps meet the condition keeps every thread consistent. -/
theorem run_inv {s s' : State} {as : List Action} (h : Inv P s) (hq : quietRun P max s as = true)
    (hs : s.run P max as = some s') : Inv P s' := by
  induction as generalizing s with
  | nil => rw [← Option.some.inj hs]; exact h
  | cons a as ih =>
    obtain ⟨t, ht, hs⟩ := Option.bind_eq_some_iff.1 hs
    rw [quietRun, ht, Bool.and_eq_true] at hq
    exact ih (step_inv h hq.1 ht) hq.2 hs

/-- **The parts of a proof belong to one signer** in every state of a run whose steps
meet the condition: what a decision got from its three calls is the signature,
the key id and the public key of the primary or of the fallback, and the
signature verifies under the public key. -/
theorem same_signer {s : State} {as : List Action} (hq : quietRun P max .init as = true)
    (hs : State.init.run P max as = some s) :
    ∀ t ∈ s.threads, ∀ h v k p, t.call = .record h → t.pc = .returned v k p →
      (∃ b, v = (P.active b).sign h ∧ k = (P.active b).keyId ∧ p = (P.active b).publicKey) ∧
        ∀ ed, P.primary.Honest ed → P.fallback.Honest ed → ed p h v = true := by
  intro t ht h v k p hcall hpc
  have hinv := run_inv (fun _ h => by cases h) hq hs t ht
  obtain ⟨call, pc⟩ := t
  obtain rfl : call = .record h := hcall
  obtain rfl : pc = .returned v k p := hpc
  obtain ⟨b, rfl, rfl, rfl⟩ := hinv
  refine ⟨⟨b, rfl, rfl, rfl⟩, fun ed hp hf => ?_⟩
  cases b
  · exact hf h
  · exact hp h

end

/-! One decision, one failure of the primary. -/

/-- The public key of the second test vector of RFC 8032. -/
def fallbackPublicKey : Bytes :=
  [0x3d, 0x40, 0x17, 0xc3, 0xe8, 0x43, 0x89, 0x5a, 0x92, 0xb7, 0x0a, 0xa7, 0x4d, 0x1b, 0x7e, 0xbc,
   0x9c, 0x98, 0x2c, 0xcf, 0x2e, 0xc4, 0x96, 0x8c, 0xc0, 0xcd, 0x55, 0xf1, 0x2a, 0xf4, 0x66, 0x0c]

/-- The hash that is signed. -/
def zeroHash : Bytes := List.replicate 32 0

/-- The primary's signature over it. -/
def primarySignature : Bytes :=
  [0x35, 0x5c, 0x74, 0x05, 0x3a, 0x38, 0x0a, 0xb5, 0x8b, 0x29, 0x8d, 0xe2, 0x3a, 0xdc, 0xca, 0x49,
   0xf3, 0x9b, 0x7c, 0xa5, 0x0a, 0x2c, 0xec, 0x5b, 0x86, 0x1f, 0x6c, 0x7f, 0xdd, 0xf8, 0x7c, 0x8a,
   0x53, 0xb7, 0x8c, 0x7b, 0xb3, 0x95, 0x92, 0x68, 0xc0, 0xdb, 0x1e, 0xde, 0xb0, 0x44, 0x07, 0x86,
   0x83, 0x9e, 0xf5, 0xde, 0xfa, 0xad, 0x62, 0x32, 0x90, 0x07, 0x61, 0x98, 0x56, 0x0b, 0x3c, 0x02]

/-- The fallback's. -/
def fallbackSignature : Bytes :=
  [0xf5, 0x55, 0xfc, 0x52, 0x4f, 0x6f, 0xbc, 0x7a, 0xd4, 0x86, 0xdd, 0xbc, 0x45, 0xe3, 0x9b, 0x06,
   0xad, 0x9d, 0x63, 0xb5, 0x6b, 0x49, 0x5f, 0x42, 0x74, 0x25, 0x06, 0x5a, 0x8e, 0x1f, 0x05, 0x9a,
   0x6e, 0x7b, 0x97, 0xaa, 0x42, 0xba, 0xa4, 0x9f, 0x49, 0xf9, 0xe6, 0x2a, 0xaa, 0x5d, 0x39, 0xc7,
   0x44, 0x89, 0xd0, 0x51, 0xf5, 0x75, 0xb1, 0x33, 0x91, 0x48, 0x1f, 0x6b, 0x19, 0xb1, 0xc6, 0x00]

/-- The keys of the two test vectors, on one hash. -/
def samplePair : Pair where
  primary :=
    { keyId := "kms-primary"
      publicKey := rfcPublicKey
      sign := fun m => if m = zeroHash then primarySignature else List.replicate 64 0
      keyId_ne := by decide
      publicKey_length := rfcPublicKey_length
      sign_length := fun m => by split_ifs <;> rfl }
  fallback :=
    { keyId := "env-3d4017c3e843895a"
      publicKey := fallbackPublicKey
      sign := fun m => if m = zeroHash then fallbackSignature else List.replicate 64 0
      keyId_ne := by decide
      publicKey_length := rfl
      sign_length := fun m => by split_ifs <;> rfl }

/-- A verifier that knows what the two sign. -/
def sampleEd25519 : Ed25519 := fun pk m s =>
  decide (pk = rfcPublicKey ∧ s = samplePair.primary.sign m) ||
    decide (pk = fallbackPublicKey ∧ s = samplePair.fallback.sign m)

/-- The primary raises `KMSUnavailable`, the fallback signs. -/
def failingRun : List Action :=
  [.spawn (.record zeroHash), .step 0 .ok, .step 0 .ok, .step 0 .failover, .step 0 .ok, .step 0 .ok,
    .step 0 .ok, .step 0 .ok, .step 0 .ok]

/-- With a threshold of one the failure lowers the flag, and the decision gets all from
the fallback. -/
theorem same_signer_fallback :
    ∃ s, State.init.run samplePair 1 failingRun = some s ∧
      (∃ t ∈ s.threads, t.call = .record zeroHash ∧
        t.pc = .returned fallbackSignature "env-3d4017c3e843895a" fallbackPublicKey) ∧
      ∃ b, fallbackSignature = (samplePair.active b).sign zeroHash ∧
        "env-3d4017c3e843895a" = (samplePair.active b).keyId ∧
        fallbackPublicKey = (samplePair.active b).publicKey := by
  obtain ⟨s, hs, t, ht, hcall, hpc⟩ : ∃ s, State.init.run samplePair 1 failingRun = some s ∧
      ∃ t ∈ s.threads, t.call = .record zeroHash ∧
        t.pc = .returned fallbackSignature "env-3d4017c3e843895a" fallbackPublicKey :=
    ⟨_, rfl, _, List.mem_cons_self .., rfl, rfl⟩
  have h := same_signer (P := samplePair) (by decide +kernel) hs t ht _ _ _ _ hcall hpc
  exact ⟨s, hs, ⟨t, ht, hcall, hpc⟩, h.1⟩

/-- **A failure below the threshold mixes the keys.**  One thread, `max_consecutive_failures`
two, the primary raises once: the signature is the fallback's, the key id and
the public key are the primary's, and the signature does not verify under it. -/
theorem threshold_mixes_keys :
    (samplePair.primary.Honest sampleEd25519 ∧ samplePair.fallback.Honest sampleEd25519) ∧
      ∃ s, State.init.run samplePair 2 failingRun = some s ∧
        (∃ t ∈ s.threads, t.call = .record zeroHash ∧
          t.pc = .returned fallbackSignature "kms-primary" rfcPublicKey) ∧
        sampleEd25519 rfcPublicKey zeroHash fallbackSignature = false := by
  refine ⟨⟨fun m => ?_, fun m => ?_⟩, _, rfl, ⟨_, List.mem_singleton_self _, rfl, rfl⟩, by decide⟩
  · simp [sampleEd25519, samplePair]
  · simp [sampleEd25519, samplePair]

end Failover
end ProvableAi
